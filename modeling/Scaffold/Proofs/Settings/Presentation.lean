import Mathlib.Data.List.Nodup
import Scaffold.Proofs.Settings.Contexts

/-!
# Presentations of Contexts

Every context can be written as settings, and it does not matter how.

A presentation says of each setting on which level it is written, and whether
flat or within its namespace. It says nothing of the order, and nothing of what
else there is, as long as that is not taken for a setting. The dotted key alone
would not be enough to go by: it can be spelled in two ways on either level, and
flattening lets the last spelling win. What makes the order irrelevant is that a
mapping holds no key twice, so keys lead to one value at most, and that no
spelling other than the chosen one occurs.

A namespace is on both levels as soon as one of its settings is in the section
and another beside it. Neither part hides the other, since the levels are merged
leaf by leaf.

## Main definitions

* `settingsOf`: The values that describe a context.
* `Place`: Where and how a setting is written.
* `Unrepeated`: A value without a repeated key in any mapping.
* `Presents`: A mapping that presents a context.
* `present`: One such mapping for each choice of places.

## Theorems

* `eq_of_mem_valueLeaves`: Keys lead to one value at most.
* `effective?_of_presents`: What is presented is effective.
* `presents_present`: Every context can be presented in every way.
* `contextOf_presented`: What presents a context describes it.
-/

namespace Scaffold.Settings

/-- The values that describe a context, in the order of the known settings. -/
def settingsOf (ctx : Context) : List (String × Value) :=
  Feature.all.map (fun f => (f.key, .bool (ctx.enabled f)))
    ++ [(insertSpacesKey, .bool !ctx.indentation.useTabs),
      (tabSizeKey, .int ctx.indentation.width)]

/-- Where and how a setting is written. -/
structure Place where
  level : Level
  /-- Within its namespace, and not under its dotted key. -/
  nested : Bool
  deriving DecidableEq, Repr

/-- The keys that lead to a setting. -/
def Place.path (p : Place) (key : String) : List Key :=
  if p.nested then [.str (namespaceOf key), .str (nameOf key)] else [.str key]

/-- No mapping in a value, or in a mapping in it, holds a key twice. -/
inductive Unrepeated : Value → Prop
  | map {es : Mapping} (distinct : es.Pairwise fun e e' => e.1.same e'.1 = false)
      (within : ∀ e ∈ es, Unrepeated e.2) : Unrepeated (.map es)
  | single {v : Value} (h : v.kind ≠ .mapping) : Unrepeated v

/-- A mapping holds every setting of a context in its place, and whatever else it
    holds is not a setting. -/
structure Presents (place : String → Place) (ctx : Context) (data : Mapping) : Prop where
  unrepeated : Unrepeated (.map data)
  usable : ¬SectionUnusable data
  written : ∀ d ∈ settingsOf ctx, ((place d.1).path d.1, d.2) ∈ leavesAt data (place d.1).level
  nothing_else : ∀ level, ∀ l ∈ leavesAt data level, l.key ∈ knownKeys →
    level = (place l.key).level ∧ l.1 = (place l.key).path l.key

section Keys

theorem nodup_knownKeys : knownKeys.Nodup := by decide +kernel

theorem nodup_checkedNamespaces : checkedNamespaces.Nodup := by decide

theorem sectionName_not_mem_checkedNamespaces : sectionName ∉ checkedNamespaces := by decide

/-- A known key is a name in a namespace. -/
theorem name_in_namespace : ∀ key ∈ knownKeys,
    namespaceOf key ++ "." ++ nameOf key = key ∧ namespaceOf key ∈ checkedNamespaces := by
  decide +kernel

theorem not_mem_checkedNamespaces : ∀ key ∈ knownKeys, key ∉ checkedNamespaces := by
  decide +kernel

theorem ne_sectionName : ∀ key ∈ knownKeys, key ≠ sectionName := by decide +kernel

/-- However a setting is written, its dotted key is its own. -/
theorem dottedKey_path {key : String} (h : key ∈ knownKeys) (p : Place) :
    dottedKey (p.path key) = key := by
  unfold Place.path
  split
  · simp only [dottedKey, dottedTail, Key.text, String.append_empty, ← String.append_assoc]
    exact (name_in_namespace key h).1
  · simp only [dottedKey, dottedTail, Key.text, String.append_empty]

/-- The keys of settings are texts, which are the same as themselves. Not all keys are. -/
theorem same_of_mem_path {key : String} {p : Place} {k : Key} (h : k ∈ p.path key) :
    k.same k = true := by
  unfold Place.path at h
  split at h
  · rcases List.mem_pair.mp h with rfl | rfl
    · exact beq_self_eq_true _
    · exact beq_self_eq_true _
  · rw [List.mem_singleton] at h
    rw [h]
    exact beq_self_eq_true _

theorem map_fst_settingsOf (ctx : Context) : (settingsOf ctx).map Prod.fst = knownKeys := rfl

theorem mem_knownKeys {ctx : Context} {d : String × Value} (h : d ∈ settingsOf ctx) :
    d.1 ∈ knownKeys := by
  rw [← map_fst_settingsOf ctx]
  exact List.mem_map_of_mem h

theorem nodup_keys_settingsOf (ctx : Context) : ((settingsOf ctx).map Prod.fst).Nodup := by
  rw [map_fst_settingsOf]
  exact nodup_knownKeys

theorem mem_settingsOf_iff {ctx : Context} {d : String × Value} :
    d ∈ settingsOf ctx ↔ (∃ f : Feature, d = (f.key, .bool (ctx.enabled f)))
      ∨ d = (insertSpacesKey, .bool !ctx.indentation.useTabs)
      ∨ d = (tabSizeKey, .int ctx.indentation.width) := by
  rw [settingsOf]
  exact mem_map_all_append_pair_iff

/-- The values that describe a context are truth values and a number. -/
theorem kind_of_mem_settingsOf {ctx : Context} {d : String × Value} (h : d ∈ settingsOf ctx) :
    d.2.kind ≠ .null ∧ d.2.kind ≠ .mapping := by
  rcases mem_settingsOf_iff.mp h with ⟨f, rfl⟩ | rfl | rfl
  · exact ⟨nofun, nofun⟩
  · exact ⟨nofun, nofun⟩
  · exact ⟨nofun, nofun⟩

end Keys

section Reading

/-- Entries of one mapping with the same key are the same entry. -/
theorem eq_of_same_key {es : Mapping} (h : es.Pairwise fun e e' => e.1.same e'.1 = false)
    {e e' : Key × Value} (he : e ∈ es) (he' : e' ∈ es) (hkey : e.1 = e'.1)
    (hsame : e.1.same e.1 = true) : e = e' := by
  -- Entries that differ have keys that are not the same, in whichever order they come.
  refine List.Pairwise.forall_of_forall_of_flip
    (R := fun a b : Key × Value => a.1 = b.1 → a.1.same a.1 = true → a = b)
    (fun _ _ _ _ => rfl) (h.imp fun hab heq htrue => ?_) (h.imp fun hab heq htrue => ?_)
    he he' hkey hsame
  · rw [← heq, htrue] at hab
    exact absurd hab nofun
  · rw [heq, ← heq, htrue] at hab
    exact absurd hab nofun

/-- Keys lead to one value at most. -/
theorem eq_of_mem_valueLeaves {v a b : Value} {ks : List Key} (h : Unrepeated v)
    (hks : ∀ k ∈ ks, k.same k = true) (ha : (ks, a) ∈ valueLeaves v)
    (hb : (ks, b) ∈ valueLeaves v) : a = b := by
  -- By induction on the nesting, with the keys that lead further in.
  induction h generalizing ks with
  | map distinct within ih =>
      rw [valueLeaves, mem_entryLeaves_iff] at ha hb
      rcases ha with ⟨e, he, ⟨ks', a'⟩, hm, hma⟩
      rcases hb with ⟨e', he', ⟨ks'', b'⟩, hm', hmb⟩
      simp only [Leaf.below, Prod.mk.injEq] at hma hmb
      rcases hma with ⟨rfl, rfl⟩
      rcases hmb with ⟨hcons, rfl⟩
      rcases List.cons.inj hcons with ⟨hkey, rfl⟩
      -- The same first key means the same entry, and the rest is within that.
      have hsame := hks _ List.mem_cons_self
      rw [← eq_of_same_key distinct he he' hkey.symm hsame] at hm'
      exact ih e he (fun k hk => hks k (List.mem_cons_of_mem _ hk)) hm hm'
  | single hkind =>
      rw [valueLeaves_of_kind hkind, List.mem_singleton] at ha hb
      exact (Prod.mk.inj ha).2.trans (Prod.mk.inj hb).2.symm

theorem unrepeated_of_mem {es : Mapping} {e : Key × Value} (h : Unrepeated (.map es))
    (he : e ∈ es) : Unrepeated e.2 := by
  cases h with
  | map _ within => exact within e he
  | single hkind => exact absurd rfl hkind

/-- The leaves of a level are those of a mapping that holds no key twice either. -/
theorem exists_leavesAt_eq {data : Mapping} (h : Unrepeated (.map data)) (level : Level) :
    ∃ v, Unrepeated v ∧ leavesAt data level = valueLeaves v := by
  cases level with
  | outer =>
      -- Leaving entries out does not repeat a key.
      refine ⟨.map (data.filter fun e => !isSection e), ?_, by rw [leavesAt, valueLeaves]⟩
      cases h with
      | map distinct within =>
          exact .map (distinct.filter _) fun e he => within e (List.mem_of_mem_filter he)
      | single hkind => exact absurd rfl hkind
  | inner =>
      simp only [leavesAt]
      split
      · next entries hsection =>
          rcases Option.map_eq_some_iff.mp hsection with ⟨e, hfind, he⟩
          refine ⟨.map entries, ?_, by rw [valueLeaves]⟩
          rw [← he]
          exact unrepeated_of_mem h (List.mem_of_find?_eq_some hfind)
      · exact ⟨.map [], .map .nil fun _ he => absurd he List.not_mem_nil,
          by rw [valueLeaves, entryLeaves]⟩

theorem lastLeaf?_eq_none {leaves : List Leaf} {key : String} (h : ∀ l ∈ leaves, l.key ≠ key) :
    lastLeaf? leaves key = none := by
  have hfilter : leaves.filter (fun l => l.key == key) = [] := by
    rw [List.filter_eq_nil_iff]
    intro l hl
    rw [beq_iff_eq]
    exact h l hl
  rw [lastLeaf?, lastOf?, hfilter]
  rfl

/-- Where all leaves with a dotted key have the same value, it is that of the last. -/
theorem lastLeaf?_eq_some {leaves : List Leaf} {key : String} {l : Leaf} (hl : l ∈ leaves)
    (hkey : l.key = key) (h : ∀ m ∈ leaves, m.key = key → m.2 = l.2) :
    lastLeaf? leaves key = some l.2 := by
  have hfilter : l ∈ leaves.filter fun m => m.key == key :=
    List.mem_filter.mpr ⟨hl, beq_iff_eq.mpr hkey⟩
  -- The last of these leaves need not be this one, but it has the same value.
  have hlast := List.getLast?_eq_some_getLast (List.ne_nil_of_mem hfilter)
  have hmem := List.getLast_mem (List.ne_nil_of_mem hfilter)
  rw [List.mem_filter, beq_iff_eq] at hmem
  rw [lastLeaf?, lastOf?, hlast, Option.map_some, h _ hmem.1 hmem.2]

variable {place : String → Place} {ctx : Context} {data : Mapping} {d : String × Value}

/-- On its level, a setting has the value that is presented. -/
theorem lastLeaf?_of_presents (h : Presents place ctx data) (hd : d ∈ settingsOf ctx) :
    lastLeaf? (leavesAt data (place d.1).level) d.1 = some d.2 := by
  have hknown := mem_knownKeys hd
  refine lastLeaf?_eq_some (h.written d hd) (dottedKey_path hknown _) fun m hm hkey => ?_
  -- No other spelling occurs, so any leaf with this dotted key is found by the same keys.
  have hpath : m.1 = (place d.1).path d.1 := by
    have hchosen := (h.nothing_else _ m hm (by rwa [hkey])).2
    rwa [hkey] at hchosen
  rcases exists_leavesAt_eq h.unrepeated (place d.1).level with ⟨v, hv, hleaves⟩
  have hwritten := h.written d hd
  rw [hleaves] at hm hwritten
  rw [← hpath] at hwritten
  exact eq_of_mem_valueLeaves hv (fun k hk => same_of_mem_path (hpath ▸ hk)) hm hwritten

/-- On the other level there is no leaf with its key. -/
theorem lastLeaf?_of_other_level (h : Presents place ctx data) (hd : d ∈ settingsOf ctx)
    {level : Level} (hlevel : level ≠ (place d.1).level) :
    lastLeaf? (leavesAt data level) d.1 = none := by
  refine lastLeaf?_eq_none fun l hl hkey => hlevel ?_
  rw [← hkey]
  exact (h.nothing_else level l hl (hkey ▸ mem_knownKeys hd)).1

/-- What is presented is effective. -/
theorem effective?_of_presents (h : Presents place ctx data) (hd : d ∈ settingsOf ctx) :
    effective? data d.1 = some d.2 := by
  rw [effective?, unlessNull_eq_some_iff]
  refine ⟨?_, (kind_of_mem_settingsOf hd).1⟩
  have hwritten := lastLeaf?_of_presents h hd
  -- What is in the section counts first, but it has no leaf of a setting beside it.
  unfold winning?
  cases hlevel : (place d.1).level with
  | inner =>
      rw [hlevel] at hwritten
      rw [hwritten, Option.some_or]
  | outer =>
      rw [hlevel] at hwritten
      rw [lastLeaf?_of_other_level h hd (by rw [hlevel]; decide), hwritten, Option.none_or]

end Reading

section Writing

/-- A mapping with texts for keys. -/
def mappingOf (ts : List (String × Value)) : Mapping := ts.map fun t => (.str t.1, t.2)

/-- Keys that differ as texts are not the same. -/
theorem unrepeated_mappingOf {ts : List (String × Value)} (h : (ts.map Prod.fst).Nodup)
    (hts : ∀ t ∈ ts, Unrepeated t.2) : Unrepeated (.map (mappingOf ts)) := by
  refine .map ?_ fun e he => ?_
  · rw [mappingOf, List.pairwise_map]
    exact (List.pairwise_map.mp h).imp fun hne => beq_eq_false_iff_ne.mpr hne
  · rcases List.mem_map.mp he with ⟨t, ht, rfl⟩
    exact hts t ht

theorem mem_leaves_mappingOf_iff {ts : List (String × Value)} {l : Leaf} :
    l ∈ entryLeaves (mappingOf ts) ↔ ∃ t ∈ ts, ∃ m ∈ valueLeaves t.2, m.below (.str t.1) = l := by
  simp only [mem_entryLeaves_iff, mappingOf, List.mem_map, exists_exists_and_eq_and]

variable (place : String → Place) (ctx : Context)

/-- The settings that are written in one way on one level. -/
def settingsAt (level : Level) (nested : Bool) : List (String × Value) :=
  (settingsOf ctx).filter fun d => place d.1 == ⟨level, nested⟩

/-- The settings that are written within a namespace, under their names in it. -/
def settingsWithin (level : Level) (space : String) : List (String × Value) :=
  ((settingsAt place ctx level true).filter fun d => namespaceOf d.1 == space).map
    fun d => (nameOf d.1, d.2)

/-- What is written on a level: the flat settings, and then the namespaces. -/
def entriesAt (level : Level) : List (String × Value) :=
  settingsAt place ctx level false
    ++ checkedNamespaces.map fun space =>
      (space, .map (mappingOf (settingsWithin place ctx level space)))

/-- A mapping that presents a context, with the section at its end. -/
def present : Mapping :=
  mappingOf (entriesAt place ctx .outer
    ++ [(sectionName, .map (mappingOf (entriesAt place ctx .inner)))])

variable {place ctx}

theorem mem_settingsAt_iff {level : Level} {nested : Bool} {d : String × Value} :
    d ∈ settingsAt place ctx level nested ↔ d ∈ settingsOf ctx ∧ place d.1 = ⟨level, nested⟩ := by
  rw [settingsAt, List.mem_filter, beq_iff_eq]

/-- Within a namespace, no name is written twice. -/
theorem nodup_names_settingsWithin (level : Level) (space : String) :
    ((settingsWithin place ctx level space).map Prod.fst).Nodup := by
  have hkeys := nodup_keys_settingsOf ctx
  rw [settingsWithin, List.map_map]
  refine List.Nodup.map_on ?_ ((List.Nodup.of_map _ hkeys).filter _ |>.filter _)
  intro d hd d' hd' hname
  rw [List.mem_filter, beq_iff_eq, mem_settingsAt_iff] at hd hd'
  -- In one namespace, settings with the same name have the same key.
  refine List.inj_on_of_nodup_map hkeys hd.1.1 hd'.1.1 ?_
  rw [← (name_in_namespace d.1 (mem_knownKeys hd.1.1)).1,
    ← (name_in_namespace d'.1 (mem_knownKeys hd'.1.1)).1, hd.2, hd'.2]
  exact congrArg _ hname

/-- On a level, no key is written twice, be it of a setting or of a namespace. -/
theorem nodup_names_entriesAt (level : Level) :
    ((entriesAt place ctx level).map Prod.fst).Nodup := by
  rw [entriesAt, List.map_append, List.map_map, List.nodup_append]
  -- Keys of settings have a dot in them and namespaces have none, so none is both.
  refine ⟨(nodup_keys_settingsOf ctx).sublist (List.filter_sublist.map _), ?_, ?_⟩
  · simpa only [Function.comp_def, List.map_id'] using nodup_checkedNamespaces
  · intro key hkey space hspace heq
    rcases List.mem_map.mp hkey with ⟨d, hd, rfl⟩
    rcases List.mem_map.mp hspace with ⟨space', hspace', rfl⟩
    refine not_mem_checkedNamespaces d.1 (mem_knownKeys (mem_settingsAt_iff.mp hd).1) ?_
    rw [heq]
    exact hspace'

theorem unrepeated_entriesAt {level : Level} :
    Unrepeated (.map (mappingOf (entriesAt place ctx level))) := by
  refine unrepeated_mappingOf (nodup_names_entriesAt level) fun t ht => ?_
  rcases List.mem_append.mp ht with ht | ht
  · exact .single (kind_of_mem_settingsOf (mem_settingsAt_iff.mp ht).1).2
  · rcases List.mem_map.mp ht with ⟨space, _, rfl⟩
    refine unrepeated_mappingOf (nodup_names_settingsWithin level space) fun t ht => ?_
    rcases List.mem_map.mp ht with ⟨d, hd, rfl⟩
    exact .single
      (kind_of_mem_settingsOf (mem_settingsAt_iff.mp (List.mem_of_mem_filter hd)).1).2

theorem ne_sectionName_of_mem_entriesAt {level : Level} {t : String × Value}
    (h : t ∈ entriesAt place ctx level) : t.1 ≠ sectionName := by
  rcases List.mem_append.mp h with h | h
  · exact ne_sectionName t.1 (mem_knownKeys (mem_settingsAt_iff.mp h).1)
  · rcases List.mem_map.mp h with ⟨space, hspace, rfl⟩
    exact fun heq => sectionName_not_mem_checkedNamespaces (heq ▸ hspace)

/-- The leaves of what is written on a level are its settings, each where it
    belongs. -/
theorem mem_leaves_entriesAt_iff {level : Level} {l : Leaf} :
    l ∈ entryLeaves (mappingOf (entriesAt place ctx level))
      ↔ ∃ d ∈ settingsOf ctx, (place d.1).level = level ∧ ((place d.1).path d.1, d.2) = l := by
  have hleaf : ∀ d ∈ settingsOf ctx, valueLeaves d.2 = [([], d.2)] := fun d hd =>
    valueLeaves_of_kind (kind_of_mem_settingsOf hd).2
  rw [mem_leaves_mappingOf_iff]
  constructor
  · -- A setting is an entry of its own, or an entry of the mapping of its namespace.
    rintro ⟨t, ht, m, hm, rfl⟩
    rcases List.mem_append.mp ht with ht | ht
    · rcases mem_settingsAt_iff.mp ht with ⟨hd, hplace⟩
      rw [hleaf t hd, List.mem_singleton] at hm
      exact ⟨t, hd, by rw [hplace], by rw [hplace, hm]; rfl⟩
    · rcases List.mem_map.mp ht with ⟨space, _, rfl⟩
      rw [valueLeaves, mem_leaves_mappingOf_iff] at hm
      rcases hm with ⟨t, ht, m, hm, rfl⟩
      rcases List.mem_map.mp ht with ⟨d, hd, rfl⟩
      rw [List.mem_filter, beq_iff_eq, mem_settingsAt_iff] at hd
      rcases hd with ⟨⟨hd, hplace⟩, rfl⟩
      rw [hleaf d hd, List.mem_singleton] at hm
      exact ⟨d, hd, by rw [hplace], by rw [hplace, hm]; rfl⟩
  · rintro ⟨d, hd, hlevel, rfl⟩
    -- How a setting is written tells where among the entries it is.
    cases hnested : (place d.1).nested with
    | false =>
        have hplace : place d.1 = ⟨level, false⟩ := by rw [← hlevel, ← hnested]
        rw [hplace]
        refine ⟨d, List.mem_append_left _ (mem_settingsAt_iff.mpr ⟨hd, hplace⟩), ([], d.2), ?_, rfl⟩
        rw [hleaf d hd]
        exact List.mem_singleton_self _
    | true =>
        have hplace : place d.1 = ⟨level, true⟩ := by rw [← hlevel, ← hnested]
        rw [hplace]
        refine ⟨_, List.mem_append_right _ (List.mem_map_of_mem
          (name_in_namespace d.1 (mem_knownKeys hd)).2),
          ([.str (nameOf d.1)], d.2), ?_, rfl⟩
        rw [valueLeaves, mem_leaves_mappingOf_iff]
        refine ⟨(nameOf d.1, d.2), List.mem_map.mpr ⟨d, ?_, rfl⟩, ([], d.2), ?_, rfl⟩
        · rw [List.mem_filter, mem_settingsAt_iff]
          exact ⟨⟨hd, hplace⟩, beq_self_eq_true _⟩
        · rw [hleaf d hd]
          exact List.mem_singleton_self _

theorem isSection_of_mem_entriesAt {level : Level} {e : Key × Value}
    (h : e ∈ mappingOf (entriesAt place ctx level)) : isSection e = false := by
  rcases List.mem_map.mp h with ⟨t, ht, rfl⟩
  rw [isSection, beq_eq_false_iff_ne]
  exact fun heq => ne_sectionName_of_mem_entriesAt ht (Key.str.inj heq)

theorem present_eq : present place ctx = mappingOf (entriesAt place ctx .outer)
    ++ [(.str sectionName, .map (mappingOf (entriesAt place ctx .inner)))] := List.map_append

theorem section?_present : section? (present place ctx)
    = some (.map (mappingOf (entriesAt place ctx .inner))) := by
  -- The section is the entry at the end, and not one that comes before.
  have hnone : (mappingOf (entriesAt place ctx .outer)).find? isSection = none :=
    List.find?_eq_none.mpr fun e he => by rw [isSection_of_mem_entriesAt he]; nofun
  rw [section?, present_eq, List.find?_append, hnone, Option.none_or]
  rfl

/-- What is presented has the leaves that were written, level by level. -/
theorem leavesAt_present (level : Level) :
    leavesAt (present place ctx) level = entryLeaves (mappingOf (entriesAt place ctx level)) := by
  cases level with
  | inner => rw [leavesAt, section?_present]
  | outer =>
      have hself : (mappingOf (entriesAt place ctx .outer)).filter (fun e => !isSection e)
          = mappingOf (entriesAt place ctx .outer) :=
        List.filter_eq_self.mpr fun e he => by rw [isSection_of_mem_entriesAt he]; rfl
      rw [leavesAt, present_eq, List.filter_append, hself]
      exact congrArg entryLeaves (List.append_nil _)

/-- Every context can be presented in every way. -/
theorem presents_present (place : String → Place) (ctx : Context) :
    Presents place ctx (present place ctx) where
  unrepeated := by
    refine unrepeated_mappingOf ?_ fun t ht => ?_
    · rw [List.map_append, List.nodup_append]
      refine ⟨nodup_names_entriesAt .outer, List.nodup_singleton _, ?_⟩
      intro key hkey other hother heq
      rcases List.mem_map.mp hkey with ⟨t, ht, rfl⟩
      rw [List.map_singleton, List.mem_singleton] at hother
      exact ne_sectionName_of_mem_entriesAt ht (heq.trans hother)
    · rcases List.mem_append.mp ht with ht | ht
      · exact unrepeated_of_mem unrepeated_entriesAt (List.mem_map_of_mem ht)
      · rw [List.mem_singleton.mp ht]
        exact unrepeated_entriesAt
  usable := by
    rintro ⟨v, hv, _, hkind⟩
    rw [section?_present] at hv
    exact hkind (by rw [← Option.some.inj hv]; rfl)
  written d hd := by
    rw [leavesAt_present, mem_leaves_entriesAt_iff]
    exact ⟨d, hd, rfl, rfl⟩
  nothing_else level l hl _ := by
    rw [leavesAt_present, mem_leaves_entriesAt_iff] at hl
    rcases hl with ⟨d, hd, hlevel, rfl⟩
    have hkey : Leaf.key ((place d.1).path d.1, d.2) = d.1 := dottedKey_path (mem_knownKeys hd) _
    simp only [hkey, hlevel, and_self]

end Writing

/-- Every context with a usable width can be written as settings in every way, and
    what presents it describes it. -/
theorem contextOf_presented (ctx : Context) (hwidth : 1 ≤ ctx.indentation.width)
    (place : String → Place) :
    (∃ data, Presents place ctx data)
      ∧ ∀ data, Presents place ctx data → contextOf data ctx.typed ctx.name = .ok ctx := by
  refine ⟨⟨_, presents_present place ctx⟩, fun data h => ?_⟩
  rcases flattenSections_cases data with ⟨_, s, hs, _⟩ | ⟨hunusable, _⟩
  · -- Every known setting is presented, so no default is ever used.
    have hvalue : ∀ d ∈ settingsOf ctx, effective? data d.1 = some d.2 := fun d hd =>
      effective?_of_presents h hd
    rw [contextOf_eq_ok_iff hs]
    refine ⟨fun f => .inl ?_, .inl ?_, .inl ⟨?_, hwidth⟩, rfl, rfl⟩
    · exact hvalue (f.key, _) (mem_settingsOf_iff.mpr (.inl ⟨f, rfl⟩))
    · exact hvalue (insertSpacesKey, _) (mem_settingsOf_iff.mpr (.inr (.inl rfl)))
    · exact hvalue (tabSizeKey, _) (mem_settingsOf_iff.mpr (.inr (.inr rfl)))
  · exact absurd hunusable h.usable

/-- Both settings of the editor in one namespace, but on different levels. -/
def editorApart (key : String) : Place :=
  ⟨if key = tabSizeKey then .outer else .inner, namespaceOf key == "editor"⟩

/-- A context that differs from the defaults in everything. -/
def unlikeDefaults : Context :=
  { typed := false, enabled := fun f => !f.onByDefault, indentation := ⟨true, 4⟩, name := "Card" }

theorem contextOf_presented_apart : 1 ≤ unlikeDefaults.indentation.width
    ∧ Presents editorApart unlikeDefaults (present editorApart unlikeDefaults)
    ∧ contextOf (present editorApart unlikeDefaults) false "Card" = .ok unlikeDefaults :=
  ⟨by decide, presents_present _ _,
    (contextOf_presented unlikeDefaults (by decide) editorApart).2 _ (presents_present _ _)⟩

end Scaffold.Settings
