import Mathlib
import Scaffold.Proofs.ComponentName.Grammar

/-!
# Pascal Case

What becomes of the characters of a name when it is brought into its normal form.

Letters and digits are kept, in their order, and everything between words goes.
A letter is a capital exactly if a separator is right in front of it, or nothing at
all. That is not the same as being the first letter of a word, since a word can
begin with a digit, and then has no capital: `my-2nd` becomes `My2nd`.

Everything follows from what happens at one place of a text. The text can be
split there (`pascalCase_append`), and all that is known behind the place about
what is in front of it is whether that ends in a separator.

The same equation takes a text apart into its words. So of two spellings of the
same words, with whatever separators between them, the normal forms are joined
from the same pieces, and letter case does not come into it since a piece does
not depend on that of its word.

## Main definitions

* `IsSeparator`, `IsCapital`, `BeginsRun`: Where capitals are.
* `PascalForm`: A normal form next to what it is the normal form of.
* `Normalized`: What is said of the normal form of a name.
* `AreWords`, `Joined`, `Spells`: Names that are built from words.

## Theorems

* `pascalCase_append`: A text can be split anywhere.
* `exists_place_of_pascalCase_eq`: Every character stands for one of the text.
* `pascalForm_pascalCase`: The normal form of an accepted text.
* `cleanName_of_eq`: A text between blanks, with its suffix or without one.
* `nameProblem?_of_pascalForm`: A normal form is accepted.
* `pascalCase_of_joined`: Words are brought into Pascal case one by one.
* `pascalCase_map_toLower`: Letter case makes no difference.
* `normalizeName_of_spells`: The normal form of a name that is built from words.
* `normalizeName_pascalForm`: All of it, for every name and for every list of words.
-/

namespace Scaffold

open Text (isBlank)

/-- A character between words. -/
def IsSeparator (c : Char) : Prop := c = '-' ∨ c = '_' ∨ isBlank c

/-- A capital of ASCII. -/
def IsCapital (c : Char) : Prop := 'A' ≤ c ∧ c ≤ 'Z'

/-- Behind these characters begins a run of others than separators, as long as can be. -/
def BeginsRun (before : List Char) : Prop := ∀ c ∈ before.getLast?, IsSeparator c

/-- A normal form next to what it is the normal form of. -/
structure PascalForm (clean normal : List Char) : Prop where
  begins : ∃ c ∈ normal.head?, IsCapital c
  consists : ∀ c ∈ normal, IsLetter c ∨ IsDigit c
  lossless : normal.map Char.toLower = (clean.filter Char.isAlphanum).map Char.toLower
  /-- Every character stands for the letter or digit that has as many others in front of it, and
      only where a run begins is it a capital. -/
  capital_iff : ∀ front c back, normal = front ++ c :: back → ∃ before d after,
    clean = before ++ d :: after ∧ d.isAlphanum ∧ c.toLower = d.toLower
      ∧ (before.filter Char.isAlphanum).length = front.length
      ∧ (IsLetter c → (IsCapital c ↔ BeginsRun before))

/-- What is said of the normal form of a name, in terms of what is left of the name. -/
structure Normalized (name : String) (clean : List Char) (result : Except NameError String) :
    Prop where
  refused_iff : ∀ e, result = .error e ↔ nameProblem? name = some e.problem ∧ e.name = name
  exists_of_accepted : nameProblem? name = none → ∃ normal, result = .ok normal
  pascalForm : ∀ normal, result = .ok normal → PascalForm clean normal.toList
  accepted : ∀ normal, result = .ok normal → nameProblem? normal = none

/-- Words of letters and digits, of which the first one begins with a letter. -/
structure AreWords (words : List (List Char)) : Prop where
  nonempty : ∀ word ∈ words, word ≠ []
  consists : ∀ word ∈ words, ∀ c ∈ word, IsLetter c ∨ IsDigit c
  begins : ∃ word ∈ words.head?, ∃ c ∈ word.head?, IsLetter c

/-- Hyphens and underscores. -/
def IsRun (run : List Char) : Prop := ∀ c ∈ run, c = '-' ∨ c = '_'

/-- Words with hyphens and underscores between them, and maybe some at the end. -/
inductive Joined : List (List Char) → List Char → Prop where
  | last {word run : List Char} (hrun : IsRun run) : Joined [word] (word ++ run)
  | next {word run text : List Char} {words : List (List Char)} (hne : run ≠ []) (hrun : IsRun run)
    (htext : Joined words text) : Joined (word :: words) (word ++ (run ++ text))

/-- Words that are joined to a name, with a suffix or without one, and with blanks around it. -/
def Spells (words : List (List Char)) (name : String) : Prop :=
  ∃ text suffix before after, name.toList = before ++ (text ++ suffix) ++ after
    ∧ Joined words text ∧ (suffix = [] ∨ IsVueSuffix suffix)
    ∧ (∀ c ∈ before, isBlank c) ∧ ∀ c ∈ after, isBlank c

section Characters

variable {c : Char}

theorem isWordBreak_iff : isWordBreak c ↔ IsSeparator c := by
  simp only [isWordBreak, IsSeparator, Bool.or_eq_true, beq_iff_eq, or_assoc]

theorem isUpper_iff : c.isUpper ↔ IsCapital c := by
  rw [Char.isUpper, decide_eq_true_eq]
  exact Iff.rfl

theorem isAlpha_iff : c.isAlpha ↔ IsLetter c := isNameStart_iff

theorem isAlphanum_iff : c.isAlphanum ↔ IsLetter c ∨ IsDigit c := by
  have hdigit : c.isDigit = (decide ('0'.val ≤ c.val) && decide (c.val ≤ '9'.val)) := rfl
  rw [Char.isAlphanum, Bool.or_eq_true, isAlpha_iff, hdigit, Bool.and_eq_true, decide_eq_true_eq,
    decide_eq_true_eq]
  exact Iff.rfl

/-- Blanks are outside the ranges of letters and digits. -/
theorem not_isBlank_of_isAlphanum (h : c.isAlphanum) : isBlank c = false := by
  rw [Bool.eq_false_iff]
  intro hblank
  simp only [isBlank, Text.blankRanges, List.any_cons, List.any_nil, Bool.or_false, Bool.or_eq_true,
    Bool.and_eq_true, decide_eq_true_eq] at hblank
  have hletters : 'a'.val.toNat = 97 ∧ 'z'.val.toNat = 122 ∧ 'A'.val.toNat = 65
      ∧ 'Z'.val.toNat = 90 := ⟨rfl, rfl, rfl, rfl⟩
  have hdigits : '0'.val.toNat = 48 ∧ '9'.val.toNat = 57 := ⟨rfl, rfl⟩
  -- All the ranges are now between numbers, and no two of them meet.
  have hval : c.toNat = c.val.toNat := rfl
  simp only [isAlphanum_eq, Char.isDigit, Bool.or_eq_true, Bool.and_eq_true, decide_eq_true_eq,
    UInt32.le_iff_toNat_le, ge_iff_le] at h
  omega

theorem not_isWordBreak_of_isAlphanum (h : c.isAlphanum) : isWordBreak c = false := by
  rw [Bool.eq_false_iff, ne_eq, isWordBreak_iff]
  rintro (rfl | rfl | hblank)
  · exact absurd h (by decide)
  · exact absurd h (by decide)
  · exact absurd hblank (by rw [not_isBlank_of_isAlphanum h]; nofun)

/-- The characters of an accepted text are separators or are kept. -/
theorem isAlphanum_eq_not_isWordBreak (h : isNameChar c ∨ c = '\n') :
    c.isAlphanum = !isWordBreak c := by
  by_cases hbreak : isWordBreak c = true
  · rw [hbreak, Bool.not_true, Bool.eq_false_iff]
    intro halnum
    rw [not_isWordBreak_of_isAlphanum halnum] at hbreak
    exact absurd hbreak Bool.false_ne_true
  · rw [isAlphanum_of_not_isWordBreak h hbreak, Bool.eq_false_iff.mpr hbreak]
    rfl

end Characters

section Places

/-- Whether a word begins behind a text, if one began in front of it or did not. -/
def beginsBehind (begins : Bool) (cs : List Char) : Bool := cs.getLast?.elim begins isWordBreak

theorem beginsBehind_cons (begins : Bool) (c : Char) (cs : List Char) :
    beginsBehind begins (c :: cs) = beginsBehind (isWordBreak c) cs := by
  rw [beginsBehind, beginsBehind, List.getLast?_cons]
  cases cs.getLast? with
  | none => rfl
  | some d => rfl

theorem beginsBehind_concat (begins : Bool) (cs : List Char) (c : Char) :
    beginsBehind begins (cs ++ [c]) = isWordBreak c := by
  rw [beginsBehind, List.getLast?_concat]
  rfl

/-- At the front of a name, a word begins where a run does. -/
theorem beginsBehind_iff {cs : List Char} : beginsBehind true cs ↔ BeginsRun cs := by
  rw [beginsBehind, BeginsRun]
  cases cs.getLast? with
  | none => exact iff_of_true rfl fun _ hc => absurd hc nofun
  | some c =>
      rw [Option.elim_some, isWordBreak_iff]
      exact ⟨fun h _ hc => Option.some.inj hc ▸ h, fun h => h c rfl⟩

/-- A text can be split anywhere. -/
theorem pascalCase_append (begins : Bool) (xs ys : List Char) :
    pascalCase begins (xs ++ ys)
      = pascalCase begins xs ++ pascalCase (beginsBehind begins xs) ys := by
  -- What is known behind the first character depends on it, so the induction is for
  -- both answers.
  induction xs generalizing begins with
  | nil => rfl
  | cons c cs ih =>
      rw [List.cons_append, pascalCase, pascalCase, beginsBehind_cons]
      by_cases hbreak : isWordBreak c = true
      · rw [if_pos hbreak, if_pos hbreak, ih, hbreak]
      · rw [if_neg hbreak, if_neg hbreak, ih, Bool.eq_false_iff.mpr hbreak, List.cons_append]

/-- Every character stands for one of the text. -/
theorem exists_place_of_pascalCase_eq {begins : Bool} {cs front back : List Char} {c : Char}
    (h : pascalCase begins cs = front ++ c :: back) :
    ∃ before d after, cs = before ++ d :: after ∧ isWordBreak d = false
      ∧ pascalCase begins before = front
      ∧ c = if beginsBehind begins before then d.toUpper else d.toLower := by
  induction cs generalizing begins front with
  | nil => exact absurd h.symm (List.append_ne_nil_of_right_ne_nil front (List.cons_ne_nil c back))
  | cons e es ih =>
      rw [pascalCase] at h
      by_cases hbreak : isWordBreak e = true
      · rw [if_pos hbreak] at h
        -- The separator in front is one of the characters before the place, and leaves
        -- nothing.
        rcases ih h with ⟨before, d, after, rfl, hd, hfront, hc⟩
        refine ⟨e :: before, d, after, rfl, hd, ?_, ?_⟩
        · rw [pascalCase, if_pos hbreak, hfront]
        · rw [beginsBehind_cons, hbreak, hc]
      · rw [if_neg hbreak] at h
        cases front with
        | nil =>
            rcases List.cons.inj h with ⟨hc, _⟩
            exact ⟨[], e, es, rfl, Bool.eq_false_iff.mpr hbreak, rfl, hc.symm⟩
        | cons f front =>
            rcases List.cons.inj h with ⟨rfl, hrest⟩
            rcases ih hrest with ⟨before, d, after, rfl, hd, hfront, hc⟩
            refine ⟨e :: before, d, after, rfl, hd, ?_, ?_⟩
            · rw [pascalCase, if_neg hbreak, hfront]
            · rw [beginsBehind_cons, Bool.eq_false_iff.mpr hbreak, hc]

/-- Up to letter case, all that is left out are the separators. -/
theorem map_toLower_pascalCase (begins : Bool) (cs : List Char) :
    (pascalCase begins cs).map Char.toLower
      = (cs.filter fun c => !isWordBreak c).map Char.toLower := by
  induction cs generalizing begins with
  | nil => rfl
  | cons c cs ih =>
      rw [pascalCase]
      by_cases hbreak : isWordBreak c = true
      · rw [if_pos hbreak, ih, List.filter_cons_of_neg (by simp [hbreak])]
      · rw [if_neg hbreak, List.filter_cons_of_pos (by simp [hbreak]), List.map_cons,
          List.map_cons, ih]
        cases begins with
        -- A capital and a small letter are the same in small letters.
        | true => rw [if_pos rfl, Char.toLower_toUpper_eq_toLower]
        | false => rw [if_neg Bool.false_ne_true, Char.toLower_toLower_eq_toLower]

end Places

section NormalForms

variable {clean normal : List Char}

/-- Only letters that begin a run are capitals. -/
theorem isCapital_iff_of_isLetter {c d : Char} {begins : Bool}
    (hc : c = if begins then d.toUpper else d.toLower) (hletter : IsLetter c) :
    IsCapital c ↔ begins := by
  rw [← isUpper_iff]
  rw [← isAlpha_iff] at hletter
  cases begins with
  | true =>
      rw [if_pos rfl] at hc
      rw [hc, Char.isAlpha_toUpper_eq_isAlpha] at hletter
      rw [hc, Char.isUpper_toUpper_eq_isAlpha]
      exact iff_of_true hletter rfl
  | false =>
      rw [if_neg Bool.false_ne_true] at hc
      rw [hc, Char.isUpper_toLower_eq_false]

/-- In an accepted text, letters and digits are all that is kept. -/
theorem filter_isAlphanum_eq (h : ∀ c ∈ clean, isNameChar c ∨ c = '\n') :
    clean.filter Char.isAlphanum = clean.filter fun c => !isWordBreak c :=
  List.filter_congr fun c hc => isAlphanum_eq_not_isWordBreak (h c hc)

/-- The normal form of an accepted text. -/
theorem pascalForm_pascalCase (h : isNameText clean) :
    PascalForm clean (pascalCase true clean) where
  begins := by
    cases clean with
    | nil => exact absurd rfl (ne_nil_of_isNameText h)
    | cons c cs =>
        rw [isNameText, Bool.and_eq_true, isNameStart] at h
        have hbreak : isWordBreak c = false :=
          not_isWordBreak_of_isAlphanum (isAlphanum_iff.mpr (.inl (isAlpha_iff.mp h.1)))
        -- A name begins with a letter, and where it begins there is no separator to be
        -- dropped.
        refine ⟨c.toUpper, ?_, isUpper_iff.mp ?_⟩
        · rw [pascalCase, if_neg (Bool.eq_false_iff.mp hbreak)]
          rfl
        · rw [Char.isUpper_toUpper_eq_isAlpha]
          exact h.1
  consists c hc := isAlphanum_iff.mp
    (isAlphanum_of_mem_pascalCase (fun _ hd => isNameChar_of_mem_isNameText h hd) hc)
  lossless := by
    rw [map_toLower_pascalCase, filter_isAlphanum_eq fun _ hd => isNameChar_of_mem_isNameText h hd]
  capital_iff front c back heq := by
    rcases exists_place_of_pascalCase_eq heq with ⟨before, d, after, rfl, hd, rfl, hc⟩
    have hnames : ∀ e ∈ before ++ d :: after, isNameChar e ∨ e = '\n' :=
      fun _ he => isNameChar_of_mem_isNameText h he
    refine ⟨before, d, after, rfl, ?_, ?_, ?_, fun hletter => ?_⟩
    · rw [isAlphanum_eq_not_isWordBreak (hnames d (by simp)), hd]
      rfl
    · rw [hc]
      split
      · exact Char.toLower_toUpper_eq_toLower d
      · exact Char.toLower_toLower_eq_toLower d
    · -- As many letters and digits are in front of both.
      have hlength := congrArg List.length (map_toLower_pascalCase true before)
      rw [List.length_map, List.length_map] at hlength
      rw [filter_isAlphanum_eq fun e he => hnames e (List.mem_append_left _ he), hlength]
    · rw [isCapital_iff_of_isLetter hc hletter, beginsBehind_iff]

/-- A text without blanks and points is all that is left of it between blanks, with the
    suffix or without it. -/
theorem cleanName_of_eq {name : String} {text suffix before after : List Char}
    (hname : name.toList = before ++ (text ++ suffix) ++ after)
    (hbefore : ∀ c ∈ before, isBlank c) (hafter : ∀ c ∈ after, isBlank c)
    (hblank : ∀ c ∈ text ++ suffix, isBlank c = false) (hpoint : '.' ∉ text)
    (hsuffix : suffix = [] ∨ IsVueSuffix suffix) : cleanName name = text := by
  have htrims : Trims name.toList (text ++ suffix) :=
    ⟨⟨before, after, hname, hbefore, hafter⟩, fun c hc => hblank c (List.mem_of_mem_head? hc),
      fun c hc => hblank c (List.mem_of_mem_getLast? hc)⟩
  refine (cleans_iff.mp ⟨text ++ suffix, htrims, ?_⟩).symm
  rcases hsuffix with rfl | hsuffix
  · rw [List.append_nil]
    refine .inr ⟨rfl, ?_⟩
    rintro front suffix rfl hsuffix
    -- A suffix has a point in it.
    rcases exists_of_isVueSuffix hsuffix with ⟨v, u, e, rfl, _⟩
    exact hpoint (by simp)
  · exact .inl ⟨suffix, hsuffix, rfl⟩

/-- A normal form is accepted. -/
theorem nameProblem?_of_pascalForm {name : String} (h : PascalForm clean name.toList) :
    nameProblem? name = none := by
  have halnum : ∀ c ∈ name.toList, c.isAlphanum := fun c hc => isAlphanum_iff.mpr (h.consists c hc)
  have hname : name.toList = [] ++ (name.toList ++ []) ++ [] := by
    rw [List.nil_append, List.append_nil, List.append_nil]
  have hclean : cleanName name = name.toList := by
    refine cleanName_of_eq hname (List.forall_mem_nil _) (List.forall_mem_nil _) ?_ ?_ (.inl rfl)
    · rw [List.append_nil]
      exact fun c hc => not_isBlank_of_isAlphanum (halnum c hc)
    · exact fun hc => absurd (halnum '.' hc) (by decide)
  rw [nameProblem?_eq_none_iff, isNameText_iff, hclean]
  refine .inl ⟨?_, fun c hc => (h.consists c hc).imp_right .inl⟩
  rcases h.begins with ⟨c, hc, hcapital⟩
  exact ⟨c, hc, .inl hcapital⟩

/-- What is said of the normal form of every name. -/
theorem normalized_normalizeName (name : String) :
    Normalized name (cleanName name) (normalizeName name) := by
  cases hproblem : nameProblem? name with
  -- A name that is not accepted is refused with what is wrong with it.
  | some problem =>
      have hresult : normalizeName name = .error ⟨problem, name⟩ := by rw [normalizeName, hproblem]
      rw [hresult]
      refine ⟨fun e => ?_, fun h => absurd (hproblem.symm.trans h) nofun, nofun, nofun⟩
      rw [hproblem]
      constructor
      · intro h
        rw [← Except.error.inj h]
        exact ⟨rfl, rfl⟩
      · rintro ⟨hsome, rfl⟩
        rw [Option.some.inj hsome]
  | none =>
      have hresult : normalizeName name
          = .ok (String.ofList (pascalCase true (cleanName name))) := by
        rw [normalizeName, hproblem]
      -- The form is one of lists of characters, and the result is a text.
      have hform := pascalForm_pascalCase (nameProblem?_eq_none_iff.mp hproblem)
      rw [← String.toList_ofList (l := pascalCase true (cleanName name))] at hform
      rw [hresult]
      refine ⟨fun e => ?_, fun _ => ⟨_, rfl⟩, ?_, ?_⟩
      · rw [hproblem]
        exact iff_of_false nofun fun h => absurd h.1 nofun
      · intro normal h
        rw [← Except.ok.inj h]
        exact hform
      · intro normal h
        rw [← Except.ok.inj h]
        exact nameProblem?_of_pascalForm hform

end NormalForms

section Words

variable {words words' : List (List Char)} {text : List Char}

theorem areWords_iff : AreWords words
    ↔ words.all (fun word => !word.isEmpty && word.all Char.isAlphanum)
      ∧ words.head?.any fun word => word.head?.any isNameStart := by
  have hall : words.all (fun word => !word.isEmpty && word.all Char.isAlphanum)
      ↔ ∀ word ∈ words, word ≠ [] ∧ ∀ c ∈ word, IsLetter c ∨ IsDigit c := by
    simp only [List.all_eq_true, Bool.and_eq_true, Bool.not_eq_true', List.isEmpty_eq_false_iff,
      isAlphanum_iff]
  have hbegins : (words.head?.any fun word => word.head?.any isNameStart)
      ↔ ∃ word ∈ words.head?, ∃ c ∈ word.head?, IsLetter c := by
    simp only [Option.any_eq_true, Option.mem_def, isNameStart_iff]
  rw [hall, hbegins]
  exact ⟨fun h => ⟨fun word hword => ⟨h.nonempty word hword, h.consists word hword⟩, h.begins⟩,
    fun h => ⟨fun word hword => (h.1 word hword).1, fun word hword => (h.1 word hword).2, h.2⟩⟩

instance : Decidable (AreWords words) := decidable_of_iff' _ areWords_iff

instance {run : List Char} : Decidable (IsRun run) :=
  decidable_of_iff (run.all fun c => c == '-' || c == '_') (by
    simp only [IsRun, List.all_eq_true, Bool.or_eq_true, beq_iff_eq])

/-- Hyphens and underscores leave no trace. -/
theorem pascalCase_of_isRun {run : List Char} (hrun : IsRun run) (begins : Bool) :
    pascalCase begins run = [] := by
  induction run generalizing begins with
  | nil => rfl
  | cons c cs ih =>
      have hbreak : isWordBreak c = true :=
        isWordBreak_iff.mpr ((hrun c List.mem_cons_self).imp_right .inl)
      rw [pascalCase, if_pos hbreak]
      exact ih (fun d hd => hrun d (List.mem_cons_of_mem c hd)) true

/-- But a word begins behind them. -/
theorem beginsBehind_of_isRun {run : List Char} (hrun : IsRun run) (hne : run ≠ [])
    (begins : Bool) : beginsBehind begins run = true := by
  rcases run.eq_nil_or_concat' with rfl | ⟨front, last, rfl⟩
  · exact absurd rfl hne
  · rw [beginsBehind_concat, isWordBreak_iff]
    exact (hrun last (by simp)).imp_right .inl

/-- Words are brought into Pascal case one by one. -/
theorem pascalCase_of_joined (h : Joined words text) :
    pascalCase true text = words.flatMap (pascalCase true) := by
  induction h with
  | last hrun =>
      rw [pascalCase_append, pascalCase_of_isRun hrun, List.append_nil, List.flatMap_cons,
        List.flatMap_nil, List.append_nil]
  | next hne hrun _ ih =>
      -- The separators leave nothing, but the next word begins behind them as the first
      -- one did.
      rw [pascalCase_append, pascalCase_append, pascalCase_of_isRun hrun,
        beginsBehind_of_isRun hrun hne, List.nil_append, ih, List.flatMap_cons]

theorem isWordBreak_toLower (c : Char) : isWordBreak c.toLower = isWordBreak c := by
  by_cases hupper : c.isUpper = true
  · have halnum : c.isAlphanum :=
      isAlphanum_iff.mpr (.inl (.inl (isUpper_iff.mp hupper)))
    rw [not_isWordBreak_of_isAlphanum halnum,
      not_isWordBreak_of_isAlphanum (isAlphanum_toLower halnum)]
  · rw [Char.toLower_eq_of_not_isUpper hupper]

/-- Letter case makes no difference. -/
theorem pascalCase_map_toLower (begins : Bool) (cs : List Char) :
    pascalCase begins (cs.map Char.toLower) = pascalCase begins cs := by
  induction cs generalizing begins with
  | nil => rfl
  | cons c cs ih =>
      rw [List.map_cons, pascalCase, pascalCase, isWordBreak_toLower, ih, ih,
        Char.toUpper_toLower_eq_toUpper, Char.toLower_toLower_eq_toLower]

/-- Words that differ in letter case only have the same pieces. -/
theorem flatMap_pascalCase_congr
    (h : words.map (List.map Char.toLower) = words'.map (List.map Char.toLower)) :
    words.flatMap (pascalCase true) = words'.flatMap (pascalCase true) := by
  have hlower (ws : List (List Char)) :
      ws.flatMap (pascalCase true)
        = (ws.map (List.map Char.toLower)).flatMap (pascalCase true) := by
    rw [List.flatMap_map]
    simp only [pascalCase_map_toLower]
  rw [hlower, h, ← hlower]

theorem isNameChar_of_joined (hconsists : ∀ word ∈ words, ∀ c ∈ word, IsLetter c ∨ IsDigit c)
    (h : Joined words text) : ∀ c ∈ text, IsLetter c ∨ IsDigit c ∨ c = '-' ∨ c = '_' := by
  have hword {word : List Char} (hmem : word ∈ words) :
      ∀ c ∈ word, IsLetter c ∨ IsDigit c ∨ c = '-' ∨ c = '_' := fun c hc =>
    (hconsists word hmem c hc).imp_right .inl
  induction h with
  | last hrun =>
      refine List.forall_mem_append.mpr ⟨hword List.mem_cons_self, fun c hc => ?_⟩
      exact .inr (.inr (hrun c hc))
  | next _ hrun _ ih =>
      refine List.forall_mem_append.mpr ⟨hword List.mem_cons_self,
        List.forall_mem_append.mpr ⟨fun c hc => .inr (.inr (hrun c hc)), ?_⟩⟩
      exact ih (fun word hmem => hconsists word (List.mem_cons_of_mem _ hmem))
        fun hmem => hword (List.mem_cons_of_mem _ hmem)

theorem followsGrammar_of_joined (hwords : AreWords words) (h : Joined words text) :
    FollowsGrammar text := by
  refine ⟨?_, isNameChar_of_joined hwords.consists h⟩
  -- The text begins as the first word does.
  have hfirst : ∀ word ∈ words.head?, ∃ rest, text = word ++ rest := by
    cases h with
    | last _ => exact fun _ hword => Option.some.inj hword ▸ ⟨_, rfl⟩
    | next _ _ _ => exact fun _ hword => Option.some.inj hword ▸ ⟨_, rfl⟩
  rcases hwords.begins with ⟨word, hword, c, hc, hletter⟩
  rcases hfirst word hword with ⟨rest, rfl⟩
  refine ⟨c, ?_, hletter⟩
  rw [List.head?_append, Option.mem_def.mp hc]
  rfl

/-- There are no blanks in a suffix, so that none of it is trimmed. -/
theorem not_isBlank_of_isVueSuffix {suffix : List Char} (h : IsVueSuffix suffix) {c : Char}
    (hc : c ∈ suffix) : isBlank c = false := by
  by_cases hupper : c.isUpper = true
  · exact not_isBlank_of_isAlphanum (isAlphanum_iff.mpr (.inl (.inl (isUpper_iff.mp hupper))))
  · -- What is no capital is one of the four characters themselves.
    have hmem : c.toLower ∈ ['.', 'v', 'u', 'e'] := h ▸ List.mem_map_of_mem hc
    rw [Char.toLower_eq_of_not_isUpper hupper] at hmem
    simp only [List.mem_cons, List.not_mem_nil, or_false] at hmem
    rcases hmem with rfl | rfl | rfl | rfl <;> decide

/-- What is left of a name that is built from words. -/
theorem cleanName_of_spells {name : String} (hwords : AreWords words) (h : Spells words name) :
    ∃ text, Joined words text ∧ cleanName name = text := by
  rcases h with ⟨text, suffix, before, after, hname, htext, hsuffix, hbefore, hafter⟩
  have hchars := isNameChar_of_joined hwords.consists htext
  refine ⟨text, htext, cleanName_of_eq hname hbefore hafter ?_ (fun hpoint => ?_) hsuffix⟩
  · refine List.forall_mem_append.mpr ⟨fun c hc => ?_, fun c hc => ?_⟩
    · rcases hchars c hc with hletter | hdigit | rfl | rfl
      · exact not_isBlank_of_isAlphanum (isAlphanum_iff.mpr (.inl hletter))
      · exact not_isBlank_of_isAlphanum (isAlphanum_iff.mpr (.inr hdigit))
      · decide
      · decide
    · rcases hsuffix with rfl | hsuffix
      · exact absurd hc List.not_mem_nil
      · exact not_isBlank_of_isVueSuffix hsuffix hc
  · -- A point is no character of a name.
    exact absurd (isNameChar_iff.mpr (hchars '.' hpoint)) (by decide)

/-- A name that is built from words is accepted, and its normal form is theirs. -/
theorem normalizeName_of_spells {name : String} (hwords : AreWords words) (h : Spells words name) :
    nameProblem? name = none
      ∧ normalizeName name = .ok (String.ofList (words.flatMap (pascalCase true))) := by
  rcases cleanName_of_spells hwords h with ⟨text, htext, hclean⟩
  have haccepted : nameProblem? name = none := by
    rw [nameProblem?_eq_none_iff, hclean, isNameText_iff]
    exact .inl (followsGrammar_of_joined hwords htext)
  refine ⟨haccepted, ?_⟩
  rw [normalizeName, haccepted, hclean, pascalCase_of_joined htext]

end Words

/-- What is said of every normal form, and of two names that are built from the same words:
    both are accepted, and they have one normal form. -/
theorem normalizeName_pascalForm :
    (∀ name, ∃ clean, (∀ clean', Cleans name clean' ↔ clean' = clean)
      ∧ Normalized name clean (normalizeName name))
    ∧ ∀ words words' name name', AreWords words → AreWords words'
      → words.map (List.map Char.toLower) = words'.map (List.map Char.toLower)
      → Spells words name → Spells words' name'
      → nameProblem? name = none ∧ nameProblem? name' = none
        ∧ ∃ normal, normalizeName name = .ok normal ∧ normalizeName name' = .ok normal := by
  constructor
  · intro name
    exact ⟨cleanName name, fun _ => cleans_iff, normalized_normalizeName name⟩
  · intro words words' name name' hwords hwords' hsame hname hname'
    rcases normalizeName_of_spells hwords hname with ⟨haccepted, hnormal⟩
    rcases normalizeName_of_spells hwords' hname' with ⟨haccepted', hnormal'⟩
    rw [← flatMap_pascalCase_congr hsame] at hnormal'
    exact ⟨haccepted, haccepted', _, hnormal, hnormal'⟩

/-- Two spellings of two words. -/
theorem normalizeName_pascalForm_myButton :
    nameProblem? "my-button.vue" = none ∧ nameProblem? " MY__bUTTON-" = none
      ∧ ∃ normal, normalizeName "my-button.vue" = .ok normal
        ∧ normalizeName " MY__bUTTON-" = .ok normal := by
  have hlower : Joined [['m', 'y'], ['b', 'u', 't', 't', 'o', 'n']]
      (['m', 'y'] ++ (['-'] ++ (['b', 'u', 't', 't', 'o', 'n'] ++ []))) :=
    .next (by decide) (by decide) (.last (by decide))
  have hupper : Joined [['M', 'Y'], ['b', 'U', 'T', 'T', 'O', 'N']]
      (['M', 'Y'] ++ (['_', '_'] ++ (['b', 'U', 'T', 'T', 'O', 'N'] ++ ['-']))) :=
    .next (by decide) (by decide) (.last (by decide))
  refine normalizeName_pascalForm.2 _ _ _ _ (by decide) (by decide) (by decide)
    ⟨_, ['.', 'v', 'u', 'e'], [], [], by decide, hlower, .inr rfl, ?_, ?_⟩
    ⟨_, [], [' '], [], by decide, hupper, .inl rfl, ?_, ?_⟩
  · exact List.forall_mem_nil _
  · exact List.forall_mem_nil _
  · exact List.forall_mem_singleton.mpr (by decide)
  · exact List.forall_mem_nil _

-- A word that begins with a digit has no capital.
example : normalizeName "my-2nd.Vue" = .ok "My2nd" := by decide +kernel

end Scaffold
