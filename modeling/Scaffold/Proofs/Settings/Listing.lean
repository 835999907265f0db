import Mathlib
import Scaffold.Command.Run
import Scaffold.Proofs.Settings.Effective
import Scaffold.Proofs.Settings.Resolution

/-!
# Listings and Contexts

What a listing of settings has to do with the context that is generated from.

Listing and resolution ask the same questions in the same order, but each checks
the answers for itself. A listing only wants values of the right kind, so where
it stops a context fails as well, and for the same reason. The converse has one
exception. A width that is an integer but not positive is listed and cannot be
used. Widths come last in the order, which matters for the first claim too: if
there were a width before another setting, a context could fail there first.

What is said here is said of the text that is printed. A line is spelled out with
the codes for its colours, and `printed` puts the line feeds in, so that a listing
with nothing in it, or with all its lines in one, would not do. The command adds
the warnings in front and the error that stopped the listing behind.

## Main definitions

* `printed`: Lines as they are printed.
* `switchLine`, `widthLine`: How a value is listed beside its default.
* `FlatSettings.lineOf`: The line of a setting.
* `ListingAgrees`: What a listing says about the context.
* `Displays`: What the command makes of a listing.

## Theorems

* `text_eq_printed`: A listing is printed line by line.
* `settingLines_append`: Settings are listed one after the other.
* `displays_runListing`: The command prints the listing.
* `listing_agrees`: What is listed is what is generated from.
-/

namespace Scaffold.Settings

open Command Terminal

/-- Lines as they are printed, each with its line feed. -/
def printed : List String → String
  | [] => ""
  | line :: lines => line ++ "\n" ++ printed lines

/-- The word for a truth value in a listing. -/
def switchWord (b : Bool) : String := if b then "true" else "false"

/-- The line of a value that is the default. -/
def plainLine (key value : String) : String := "  " ++ key ++ ": " ++ value

/-- The line of a value that is not, in green and with the default beside it, dimmed. -/
def highlightedLine (key value default : String) : String :=
  "  \x1b[92m" ++ key ++ ": " ++ value ++ "\x1b[0m \x1b[2m(default: " ++ default ++ ")\x1b[0m"

/-- The line of a switch, which is highlighted if it differs from the default. -/
def switchLine (key : String) (default b : Bool) : String :=
  if b = default then plainLine key (switchWord b)
  else highlightedLine key (switchWord b) (switchWord default)

/-- The line of a width, which is highlighted if it differs from the default. -/
def widthLine (key : String) (default n : Int) : String :=
  if n = default then plainLine key (toString n)
  else highlightedLine key (toString n) (toString default)

/-- The header of a listing, which stands out and says where the settings are from. -/
def headerLine (origin : String) : String :=
  "\x1b[95m\x1b[1mvuegen settings (" ++ origin ++ ")\x1b[0m"

/-- The line of an error that has stopped a listing, in red. -/
def errorLine (message : String) : String := "\x1b[91m❌ " ++ message ++ "\x1b[0m\n"

/-- The line of a setting: what counts for it, or else its default. -/
def FlatSettings.lineOf (s : FlatSettings) : String × Default → String
  | (key, .switch on) =>
    match s.value? key with
    | some (.bool b) => switchLine key on b
    | _ => switchLine key on on
  | (key, .width m) =>
    match s.value? key with
    | some (.int n) => widthLine key m n
    | _ => widthLine key m m

/-- What a listing says about the context. -/
structure ListingAgrees (listing : Listing) (origin : String) (s : FlatSettings)
    (context : Except SettingsError Context) : Prop where
  /-- Where a listing stops, a context fails for the same reason, and exactly what comes
      before that is printed. -/
  stops : ∀ e, listing.error? = some e → context = .error e
    ∧ ∃ before key default after v, defaults = before ++ (key, default) :: after
      ∧ s.value? key = some v ∧ v.kind ≠ default.value.kind
      ∧ e = .wrongKind key default.value.kind v
      ∧ listing.text = printed (headerLine origin :: before.map s.lineOf)
  /-- Where it does not stop, only a width can be in the way of a context. -/
  finishes : listing.error? = none → (∃ ctx, context = .ok ctx)
    ∨ ∃ n, n < 1 ∧ s.value? tabSizeKey = some (.int n) ∧ context = .error (.notWidth (.int n))
  /-- Where there is a context, it is what is printed. -/
  shows : ∀ ctx, context = .ok ctx → listing.error? = none
    ∧ listing.text = printed (headerLine origin
      :: (Feature.all.map fun f => switchLine f.key f.onByDefault (ctx.enabled f))
      ++ [switchLine insertSpacesKey true (!ctx.indentation.useTabs),
        widthLine tabSizeKey 2 ctx.indentation.width])

/-- What the command makes of a listing: the warnings come in front of it, and behind it
    the error that has stopped it. -/
structure Displays (outcome : Outcome) (warnings : List Message) (listing : Listing) : Prop where
  stopped : ∀ e, listing.error? = some e → outcome.result = .ok 1
    ∧ outcome.stdout = messageText warnings ++ listing.text ++ errorLine e.message
  finished : listing.error? = none → outcome.result = .ok 0
    ∧ outcome.stdout = messageText warnings ++ listing.text

section Printing

/-- A listing is printed line by line. -/
theorem text_eq_printed (listing : Listing) : listing.text = printed listing.lines := by
  rcases listing with ⟨lines, error?⟩
  induction lines with
  | nil => rfl
  | cons line lines ih =>
      rw [Listing.text, List.map_cons, String.join_cons, printed, ← ih]
      rfl

/-- A text in styles stands between the codes for these and the one that ends them. -/
theorem paint_eq (text codes : String) {styles : List Style}
    (h : String.join (styles.map Style.code) = codes) :
    paint text styles = codes ++ text ++ "\x1b[0m" := by
  rw [paint, h]
  rfl

/-- The header is painted as it is spelled out. -/
theorem headerLine_eq (origin : String) :
    headerLine origin = paint ("vuegen settings (" ++ origin ++ ")") [.header, .bold] := by
  have hcodes : String.join ([Style.header, .bold].map Style.code) = "\x1b[95m\x1b[1m" := by decide
  have hfront : "\x1b[95m\x1b[1mvuegen settings (" = "\x1b[95m\x1b[1m" ++ "vuegen settings (" := by
    decide
  have hback : ")\x1b[0m" = ")" ++ "\x1b[0m" := by decide
  -- To rewrite with a literal would compare it with every other one in the goal.
  have hspelled := congrArg₂ (fun front back => front ++ origin ++ back) hfront hback
  rw [paint_eq _ _ hcodes]
  refine hspelled.trans ?_
  simp only [String.append_assoc]

/-- The error that stops a listing is shown as any other failure. -/
theorem errorLine_eq (message : String) : errorLine message = (Message.failure message).line := by
  have hcodes : String.join ([Style.red].map Style.code) = "\x1b[91m" := by decide
  -- Each literal is taken apart where a code ends, and then the pieces are the same.
  have hfront : "\x1b[91m❌ " = "\x1b[91m" ++ "❌ " := by decide
  have hback : "\x1b[0m\n" = "\x1b[0m" ++ "\n" := by decide
  have hspelled := congrArg₂ (fun front back => front ++ message ++ back) hfront hback
  rw [Message.line, paint_eq _ _ hcodes]
  refine hspelled.trans ?_
  simp only [String.append_assoc]

/-- A value and the default beside it are painted one by one. -/
theorem highlightedLine_eq (key value default : String) : highlightedLine key value default
    = "  " ++ paint (key ++ ": " ++ value) [.green] ++ " "
      ++ paint ("(default: " ++ default ++ ")") [.dim] := by
  have hgreen : String.join ([Style.green].map Style.code) = "\x1b[92m" := by decide
  have hdim : String.join ([Style.dim].map Style.code) = "\x1b[2m" := by decide
  have hfront : "  \x1b[92m" = "  " ++ "\x1b[92m" := by decide
  have hmid : "\x1b[0m \x1b[2m(default: " = "\x1b[0m" ++ " " ++ "\x1b[2m" ++ "(default: " := by
    decide
  have hback : ")\x1b[0m" = ")" ++ "\x1b[0m" := by decide
  rw [highlightedLine, paint_eq _ _ hgreen, paint_eq _ _ hdim, hfront, hmid, hback]
  simp only [String.append_assoc]

end Printing

/-- A switch is listed by its word, and highlighted if it is not the default. -/
theorem settingLine_switch (key : String) (on b : Bool) :
    settingLine key (.switch on) (.bool b) = switchLine key on b := by
  unfold settingLine switchLine
  rw [highlightedLine_eq]
  by_cases h : b = on
  · rw [if_pos h, if_pos (by simp [Default.isValue, h])]
    rfl
  · rw [if_neg h, if_neg (by simp [Default.isValue, Ne.symm h])]
    rfl

/-- So is a width, by its digits. -/
theorem settingLine_width (key : String) (m n : Int) :
    settingLine key (.width m) (.int n) = widthLine key m n := by
  unfold settingLine widthLine
  rw [highlightedLine_eq]
  by_cases h : n = m
  · rw [if_pos h, if_pos (by simp [Default.isValue, h])]
    rfl
  · rw [if_neg h, if_neg (by simp [Default.isValue, Ne.symm h])]
    rfl

/-- Of the known settings, what comes before another one is a switch. -/
theorem exists_switch_of_split {before after : List (String × Default)} {d d' : String × Default}
    (hsplit : defaults = before ++ d :: after) (hd' : d' ∈ before) :
    ∃ on, d'.2 = .switch on := by
  have hinit : d' ∈ defaults.dropLast := by
    rw [hsplit, List.dropLast_append_of_ne_nil (List.cons_ne_nil d after)]
    exact List.mem_append_left _ hd'
  -- All settings but the last one are switches.
  have hlast : defaults.dropLast
      = Feature.all.map (fun f => (f.key, Default.switch f.onByDefault))
        ++ [(insertSpacesKey, .switch true)] := rfl
  rw [hlast, List.mem_append, List.mem_map, List.mem_singleton] at hinit
  rcases hinit with ⟨f, _, rfl⟩ | rfl
  · exact ⟨_, rfl⟩
  · exact ⟨_, rfl⟩

section Answers

variable (s : FlatSettings)

theorem kind_value_ne_null (default : Default) : default.value.kind ≠ .null := by
  cases default <;> nofun

/-- No default is null, so a value is only checked for the kind of the default. -/
theorem checkKind_default (key : String) (v : Value) (default : Default) :
    checkKind key v default.value
      = if v.kind = default.value.kind then .ok v
        else .error (.wrongKind key default.value.kind v) := by
  simp only [checkKind_eq, kind_value_ne_null default, false_or]

/-- What stops a listing is a value of the wrong kind. -/
theorem failure?_get_eq_some_iff {key : String} {default : Default} {e : SettingsError} :
    failure? (s.get key default.value) = some e
      ↔ ∃ v, s.value? key = some v ∧ v.kind ≠ default.value.kind
        ∧ e = .wrongKind key default.value.kind v := by
  rw [failure?_eq_some_iff]
  cases hvalue : s.value? key with
  | none =>
      rw [FlatSettings.get_of_value?_eq_none hvalue]
      exact ⟨nofun, nofun⟩
  | some v =>
      rw [FlatSettings.get_of_value?_eq_some hvalue, checkKind_default]
      simp only [Option.some.injEq, exists_eq_left']
      by_cases hkind : v.kind = default.value.kind
      · rw [if_pos hkind]
        exact ⟨nofun, fun h => absurd hkind h.1⟩
      · rw [if_neg hkind, Except.error.injEq]
        exact ⟨fun h => ⟨hkind, h.symm⟩, fun h => h.2.symm⟩

/-- Nothing stops a listing where every value that counts is of the right kind. -/
theorem failure?_get_eq_none_iff {key : String} {default : Default} :
    failure? (s.get key default.value) = none
      ↔ ∀ v, s.value? key = some v → v.kind = default.value.kind := by
  rw [Option.eq_none_iff_forall_ne_some]
  constructor
  · intro h v hv
    by_contra hkind
    exact h _ ((failure?_get_eq_some_iff s).mpr ⟨v, hv, hkind, rfl⟩)
  · intro h e he
    rcases (failure?_get_eq_some_iff s).mp he with ⟨v, hv, hkind, _⟩
    exact hkind (h v hv)

theorem kind_of_admits {default : Default} {v : Value} (h : default.Admits v) :
    v.kind = default.value.kind := by
  cases h <;> rfl

/-- A value of the wrong kind is a fault too, and the same is said of it. -/
theorem fault?_of_failure?_get {d : String × Default} (hd : d ∈ defaults) {e : SettingsError}
    (h : failure? (s.get d.1 d.2.value) = some e) : Source.fault? s.get d = some e := by
  rcases (failure?_get_eq_some_iff s).mp h with ⟨v, hv, hkind, rfl⟩
  refine (FlatSettings.fault?_get_eq_some_iff s hd).mpr
    ⟨v, hv, fun hadmits => hkind (kind_of_admits hadmits), ?_⟩
  unfold objection
  split
  · next heq => exact absurd (by rw [heq]; rfl) hkind
  · rfl

/-- A switch of the right kind is no fault. -/
theorem fault?_of_switch {d : String × Default} (hd : d ∈ defaults)
    (hswitch : ∃ on, d.2 = .switch on) (h : failure? (s.get d.1 d.2.value) = none) :
    Source.fault? s.get d = none := by
  rcases hswitch with ⟨on, hon⟩
  rw [FlatSettings.fault?_get_eq_none_iff s hd]
  intro v hv
  have hkind := (failure?_get_eq_none_iff s).mp h v hv
  rw [hon] at hkind ⊢
  exact admits_switch_iff.mpr hkind

/-- A usable answer is listed as the value that counts, or else as the default. -/
theorem settingLine_of_get {d : String × Default} {v : Value}
    (h : s.get d.1 d.2.value = .ok v) : settingLine d.1 d.2 v = s.lineOf d := by
  obtain ⟨key, default⟩ := d
  cases hvalue : s.value? key with
  | none =>
      rw [FlatSettings.get_of_value?_eq_none hvalue] at h
      rw [← Except.ok.inj h]
      cases default with
      | switch on => simp [FlatSettings.lineOf, hvalue, Default.value, settingLine_switch]
      | width m => simp [FlatSettings.lineOf, hvalue, Default.value, settingLine_width]
  | some w =>
      have hkind := (failure?_get_eq_none_iff s).mp (failure?_eq_none_iff.mpr ⟨v, h⟩) w hvalue
      rw [FlatSettings.get_of_value?_eq_some hvalue, checkKind_default, if_pos hkind] at h
      rw [← Except.ok.inj h]
      cases default with
      | switch on =>
          rcases exists_bool_of_kind hkind with ⟨b, rfl⟩
          simp [FlatSettings.lineOf, hvalue, settingLine_switch]
      | width m =>
          rcases exists_int_of_kind hkind with ⟨n, rfl⟩
          simp [FlatSettings.lineOf, hvalue, settingLine_width]

/-- Settings are listed one after the other, as long as they are usable. -/
theorem settingLines_append {ds rest : List (String × Default)}
    (h : ∀ d ∈ ds, failure? (s.get d.1 d.2.value) = none) :
    settingLines s.get (ds ++ rest)
      = ⟨ds.map s.lineOf ++ (settingLines s.get rest).lines,
        (settingLines s.get rest).error?⟩ := by
  induction ds with
  | nil => rfl
  | cons d ds ih =>
      rcases failure?_eq_none_iff.mp (h d List.mem_cons_self) with ⟨v, hv⟩
      rw [List.cons_append, settingLines, hv]
      simp only [ih fun d' hd' => h d' (List.mem_cons_of_mem d hd'), settingLine_of_get s hv,
        List.map_cons, List.cons_append]

theorem settingLines_of_usable {ds : List (String × Default)}
    (h : ∀ d ∈ ds, failure? (s.get d.1 d.2.value) = none) :
    settingLines s.get ds = ⟨ds.map s.lineOf, none⟩ := by
  have hall : settingLines s.get (ds ++ []) = ⟨ds.map s.lineOf ++ [], none⟩ :=
    settingLines_append s h
  rwa [List.append_nil, List.append_nil] at hall

/-- Settings are gone through until one of them has an error. -/
theorem error?_settingLines (source : Source) (ds : List (String × Default)) :
    (settingLines source ds).error?
      = ds.findSome? fun d => failure? (source d.1 d.2.value) := by
  induction ds with
  | nil => rfl
  | cons d ds ih =>
      rw [List.findSome?_cons, settingLines]
      cases source d.1 d.2.value with
      | error e => rfl
      | ok v => exact ih

end Answers

section Agreement

variable {s : FlatSettings} {origin : String} {typed : Bool} {name : String}

/-- A listing is its header and then the lines of the known settings. -/
theorem listing_eq (s : FlatSettings) (origin : String) : s.listing origin
    = ⟨headerLine origin :: (settingLines s.get defaults).lines,
      (settingLines s.get defaults).error?⟩ := by
  rw [headerLine_eq]
  rfl

/-- What stops a listing is the first answer that is an error. -/
theorem error?_listing : (s.listing origin).error?
    = defaults.findSome? fun d => failure? (s.get d.1 d.2.value) :=
  error?_settingLines s.get defaults

/-- Where a listing stops, a context fails for the same reason. -/
theorem stops_of_error? {e : SettingsError} (h : (s.listing origin).error? = some e) :
    Source.context s.get typed name = .error e
      ∧ ∃ before key default after v, defaults = before ++ (key, default) :: after
        ∧ s.value? key = some v ∧ v.kind ≠ default.value.kind
        ∧ e = .wrongKind key default.value.kind v
        ∧ (s.listing origin).lines = headerLine origin :: before.map s.lineOf := by
  rw [error?_listing, List.findSome?_eq_some_iff] at h
  rcases h with ⟨before, ⟨key, default⟩, after, hsplit, hstop, hbefore⟩
  have hd : (key, default) ∈ defaults := hsplit ▸ List.mem_append_cons_self
  rcases (failure?_get_eq_some_iff s).mp hstop with ⟨v, hv, hkind, he⟩
  refine ⟨?_, before, key, default, after, v, hsplit, hv, hkind, he, ?_⟩
  · rw [Source.context_eq_error_iff, List.findSome?_eq_some_iff]
    -- The first error of the listing is the first fault as well.
    refine ⟨before, (key, default), after, hsplit, fault?_of_failure?_get s hd hstop,
      fun d' hd' => ?_⟩
    -- A width before the one that stops the listing could be a fault of its own.
    refine fault?_of_switch s ?_ (exists_switch_of_split hsplit hd') (hbefore d' hd')
    rw [hsplit]
    exact List.mem_append_left _ hd'
  · have hget : s.get key default.value = .error e := failure?_eq_some_iff.mp hstop
    have hstopped : settingLines s.get ((key, default) :: after) = ⟨[], some e⟩ := by
      rw [settingLines, hget]
    rw [listing_eq, hsplit, settingLines_append s hbefore, hstopped, List.append_nil]

/-- Where it does not stop, only a width can be in the way of a context. -/
theorem finishes_of_error? (h : (s.listing origin).error? = none) :
    (∃ ctx, Source.context s.get typed name = .ok ctx)
      ∨ ∃ n, n < 1 ∧ s.value? tabSizeKey = some (.int n)
        ∧ Source.context s.get typed name = .error (.notWidth (.int n)) := by
  rw [error?_listing, List.findSome?_eq_none_iff] at h
  cases hcontext : Source.context s.get typed name with
  | ok ctx => exact .inl ⟨ctx, rfl⟩
  | error e =>
      rcases (FlatSettings.context_get_eq_error_iff s).mp hcontext with
        ⟨before, ⟨key, default⟩, after, hsplit, _, v, hv, hoffends, rfl⟩
      have hd : (key, default) ∈ defaults := hsplit ▸ List.mem_append_cons_self
      -- A value that has been listed is of the right kind, which is all there is to a
      -- switch.
      have hkind := (failure?_get_eq_none_iff s).mp (h _ hd) v hv
      cases default with
      | switch on => exact absurd (admits_switch_iff.mpr hkind) hoffends
      | width m =>
          rcases exists_int_of_kind hkind with ⟨n, rfl⟩
          rw [(FlatSettings.eq_of_width_mem_defaults hd).1] at hv
          exact .inr ⟨n, Int.not_le.mp fun hn => hoffends (.width m hn), hv, rfl⟩

theorem lineOf_switch {key : String} {on b : Bool} (h : Source.switch s.get key on = .ok b) :
    s.lineOf (key, .switch on) = switchLine key on b := by
  rcases FlatSettings.switch_get_eq_ok_iff.mp h with hvalue | ⟨hnone, rfl⟩
  · simp [FlatSettings.lineOf, hvalue]
  · simp [FlatSettings.lineOf, hnone]

theorem lineOf_width {n : Int} (h : Source.tabSize s.get = .ok n) :
    s.lineOf (tabSizeKey, .width defaultTabSize) = widthLine tabSizeKey 2 n := by
  rcases FlatSettings.tabSize_get_eq_ok_iff.mp h with ⟨hvalue, _⟩ | ⟨hnone, rfl⟩
  · simp [FlatSettings.lineOf, hvalue, defaultTabSize]
  · simp [FlatSettings.lineOf, hnone, defaultTabSize]

/-- Where there is a context, it is what is listed. -/
theorem shows_of_context {ctx : Context} (h : Source.context s.get typed name = .ok ctx) :
    (s.listing origin).error? = none
      ∧ (s.listing origin).lines = headerLine origin
        :: (Feature.all.map fun f => switchLine f.key f.onByDefault (ctx.enabled f))
        ++ [switchLine insertSpacesKey true (!ctx.indentation.useTabs),
          widthLine tabSizeKey 2 ctx.indentation.width] := by
  -- What would stop the listing would be a fault, and a context has none.
  have husable : ∀ d ∈ defaults, failure? (s.get d.1 d.2.value) = none := by
    intro d hd
    rw [Option.eq_none_iff_forall_ne_some]
    intro e he
    exact absurd ((fault?_of_failure?_get s hd he).symm.trans (Source.fault?_of_context _ h hd))
      nofun
  rcases (Source.context_eq_ok_iff _).mp h with ⟨hon, hspaces, hwidth, _, _⟩
  have hlines : defaults.map s.lineOf
      = (Feature.all.map fun f => switchLine f.key f.onByDefault (ctx.enabled f))
        ++ [switchLine insertSpacesKey true (!ctx.indentation.useTabs),
          widthLine tabSizeKey 2 ctx.indentation.width] := by
    rw [defaults_eq, List.map_append, List.map_map, List.map_cons, List.map_singleton,
      lineOf_switch hspaces, lineOf_width hwidth]
    congr 1
    exact List.map_congr_left fun f _ => lineOf_switch (hon f)
  rw [listing_eq, settingLines_of_usable s husable, hlines]
  exact ⟨rfl, rfl⟩

end Agreement

/-- The command prints the listing of what it has loaded. -/
theorem displays_runListing {w : Workspace} {config? : Option Path} {l : Loaded}
    (hload : load w config? = .ok l) :
    Displays (runListing w config?) l.warnings (l.settings.listing l.origin) := by
  have hlisting : l.listing = l.settings.listing l.origin := rfl
  unfold runListing
  rw [hload]
  simp only [hlisting]
  constructor
  · intro e he
    rw [he, errorLine_eq]
    exact ⟨rfl, rfl⟩
  · intro hnone
    rw [hnone]
    exact ⟨rfl, rfl⟩

/-- What is printed is what is generated from, and the command prints just that. -/
theorem listing_agrees :
    (∀ s origin typed name,
        ListingAgrees (s.listing origin) origin s (Source.context s.get typed name))
      ∧ ∀ w config? l, load w config? = .ok l →
        Displays (runListing w config?) l.warnings (l.settings.listing l.origin) := by
  refine ⟨fun s origin typed name => ⟨fun e h => ?_, finishes_of_error?, fun ctx h => ?_⟩,
    fun w config? l => displays_runListing⟩
  · rcases stops_of_error? h with ⟨hcontext, before, key, default, after, v, hsplit, hv, hkind, he,
      hlines⟩
    exact ⟨hcontext, before, key, default, after, v, hsplit, hv, hkind, he,
      by rw [text_eq_printed, hlines]⟩
  · have hshows : (s.listing origin).error? = none ∧ _ := shows_of_context h
    exact ⟨hshows.1, by rw [text_eq_printed, hshows.2]⟩

/-- A settings file with a number in the place of a switch. -/
def mistypedText : String := "editor:\n  insertSpaces: 3\n"

/-- What it holds. -/
def mistypedEntries : Mapping := [(.str "editor", .map [(.str "insertSpaces", .int 3)])]

/-- A workspace with that settings file. -/
def mistyped : Workspace :=
  (Workspace.empty.writeFile { parts := [fileName] } (.text mistypedText)).1

theorem load_mistyped : load mistyped none
    = .ok { settings := flatten mistypedEntries
            path? := some { anchor := .root, parts := [fileName] } } := by
  have hparse : Yaml.parse mistypedText.toList = .ok (.map mistypedEntries) := by cbv
  have hfind : findFile mistyped none = some { anchor := .root, parts := [fileName] } := rfl
  have hentry : mistyped.entry { anchor := .root, parts := [fileName] }
      = .ok (.file (.text mistypedText)) := rfl
  exact load_of_readDocument hfind (readDocument_of_parse hentry hparse) rfl

/-- The number stops the listing right before its own line, and the error is told instead. -/
theorem listing_agrees_mistyped :
    Source.context (flatten mistypedEntries).get true ""
        = .error (.wrongKind insertSpacesKey .boolean (.int 3))
      ∧ (runListing mistyped none).result = .ok 1
      ∧ ∃ before default after, defaults = before ++ (insertSpacesKey, default) :: after
        ∧ (runListing mistyped none).stdout
          = printed (headerLine "/vuegen.yaml" :: before.map (flatten mistypedEntries).lineOf)
            ++ errorLine "'editor.insertSpaces' must be a boolean, got 3" := by
  have hstop : ((flatten mistypedEntries).listing "/vuegen.yaml").error?
      = some (.wrongKind insertSpacesKey .boolean (.int 3)) := rfl
  -- Both the context and the listing end at the same setting.
  rcases (listing_agrees.1 _ "/vuegen.yaml" true "").stops _ hstop with
    ⟨hcontext, before, key, default, after, v, hsplit, _, _, he, htext⟩
  rcases (listing_agrees.2 _ _ _ load_mistyped).stopped _ hstop with ⟨hresult, hstdout⟩
  obtain rfl : insertSpacesKey = key := (SettingsError.wrongKind.inj he).1
  refine ⟨hcontext, hresult, before, default, after, hsplit, hstdout.trans ?_⟩
  have hentries : (flatten mistypedEntries).entries.filter FlatSettings.isUnknown = [] := by decide
  have hunknown : (flatten mistypedEntries).unknownKeys = [] := by
    rw [FlatSettings.unknownKeys, hentries]
    exact List.mergeSort_nil
  have hmessage : (SettingsError.wrongKind insertSpacesKey .boolean (.int 3)).message
      = "'editor.insertSpaces' must be a boolean, got 3" := by
    decide
  -- Nothing in the file is unknown, so there are no warnings in front.
  rw [(warnings_eq_nil_iff load_mistyped).mpr hunknown, hmessage, ← htext]
  rfl

end Scaffold.Settings
