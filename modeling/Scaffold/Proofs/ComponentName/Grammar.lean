import Mathlib.Data.List.DropRight
import Scaffold.Proofs.ComponentName

/-!
# The Grammar of Component Names

Which names are accepted, and what is said of the others.

What is left of a name without its surrounding blanks and without one `.vue` is
the only text that matters, and there is exactly one such text for every name
(`cleans_iff`). How it is found makes no difference: the blanks in front end at
the first character that is none, those behind at the last, and a suffix has
four characters in whatever letter case.

The check of that text is not quite the grammar that its message speaks of. It
finds the end of a text before one last line feed as well as behind it. A name
itself cannot end in a line feed once it has been trimmed, but the suffix is taken
off after the trimming and can uncover one. So the grammar is all there is to it
except where a line feed is right in front of the suffix, and there the check is
wrong (`lineFeed_accepted`).

## Main definitions

* `Trims`: A text between the blanks at the ends of another.
* `IsVueSuffix`: The suffix in any letter case.
* `Cleans`: What is left of a name.
* `IsLetter`, `IsDigit`, `FollowsGrammar`: The grammar of names.
* `Verdict`: What is said of a name.

## Theorems

* `cleans_iff`: Exactly one text is left of a name.
* `isNameText_iff`: The check is the grammar, but for a line feed at the end.
* `nameProblem?_verdict`: What is said of every name.
* `lineFeed_accepted`: A name is accepted that does not follow the grammar.
-/

namespace Scaffold

open Text (isBlank trim)

/-- A text between the blanks at the ends of another. -/
structure Trims (cs mid : List Char) : Prop where
  around : ∃ before after, cs = before ++ mid ++ after
    ∧ (∀ c ∈ before, isBlank c) ∧ ∀ c ∈ after, isBlank c
  begins : ∀ c ∈ mid.head?, isBlank c = false
  ends : ∀ c ∈ mid.getLast?, isBlank c = false

/-- The suffix in any letter case. -/
def IsVueSuffix (suffix : List Char) : Prop := suffix.map Char.toLower = ['.', 'v', 'u', 'e']

/-- A name without its surrounding blanks and then without one suffix, if it has one. -/
def Cleans (name : String) (clean : List Char) : Prop :=
  ∃ mid, Trims name.toList mid
    ∧ ((∃ suffix, IsVueSuffix suffix ∧ mid = clean ++ suffix)
      ∨ mid = clean ∧ ∀ front suffix, mid = front ++ suffix → ¬IsVueSuffix suffix)

/-- A letter of ASCII. -/
def IsLetter (c : Char) : Prop := ('A' ≤ c ∧ c ≤ 'Z') ∨ ('a' ≤ c ∧ c ≤ 'z')

/-- A digit of ASCII. -/
def IsDigit (c : Char) : Prop := '0' ≤ c ∧ c ≤ '9'

/-- A first letter, and all of it letters, digits, hyphens and underscores. -/
structure FollowsGrammar (clean : List Char) : Prop where
  begins : ∃ c ∈ clean.head?, IsLetter c
  consists : ∀ c ∈ clean, IsLetter c ∨ IsDigit c ∨ c = '-' ∨ c = '_'

/-- What is said of a name, in terms of what is left of it. -/
structure Verdict (clean : List Char) (message? : Option String) : Prop where
  accepted_iff : message? = none
    ↔ FollowsGrammar clean ∨ ∃ front, FollowsGrammar front ∧ clean = front ++ ['\n']
  empty_iff : message? = some "Component name cannot be empty" ↔ clean = []
  malformed_iff : message? = some ("Component name must start with a letter and contain only "
      ++ "alphanumeric characters, hyphens, or underscores")
    ↔ message? ≠ none ∧ clean ≠ []
  /-- Without a line feed at the end, the grammar is all there is to it. -/
  exact_iff : clean.getLast? ≠ some '\n' → (message? = none ↔ FollowsGrammar clean)

section Trimming

variable {cs mid : List Char}

theorem dropWhile_of_head? {p : Char → Bool} (h : ∀ c ∈ cs.head?, p c = false) :
    cs.dropWhile p = cs := by
  cases cs with
  | nil => rfl
  | cons c cs => exact List.dropWhile_cons_of_neg (by rw [h c rfl]; nofun)

/-- Both ends are dropped from, the second one in reverse. -/
theorem trim_eq (cs : List Char) : trim cs = (cs.dropWhile isBlank).rdropWhile isBlank := rfl

/-- There is only one way to trim a text. -/
theorem Trims.eq_trim (h : Trims cs mid) : mid = trim cs := by
  rcases h.around with ⟨before, after, rfl, hbefore, hafter⟩
  have hmid : mid.dropWhile isBlank = mid := dropWhile_of_head? h.begins
  -- From the other end nothing is dropped either.
  have hdim : mid.reverse.dropWhile isBlank = mid.reverse :=
    dropWhile_of_head? (by rw [List.head?_reverse]; exact h.ends)
  have hall : (after.dropWhile isBlank) = [] := List.dropWhile_eq_nil_iff.mpr hafter
  rw [trim_eq, List.append_assoc, List.dropWhile_append_of_pos hbefore, List.dropWhile_append, hmid]
  -- If nothing is left in between, the blanks behind go with those in front.
  cases mid with
  | nil => rw [List.isEmpty_nil, if_pos rfl, hall, List.rdropWhile_nil]
  | cons c mid =>
      rw [List.isEmpty_cons, if_neg nofun, List.rdropWhile, List.reverse_append,
        List.dropWhile_append_of_pos (by simpa using hafter), hdim, List.reverse_reverse]

/-- Trimming finds a text between the blanks. -/
theorem trims_trim (cs : List Char) : Trims cs (trim cs) where
  around := by
    refine ⟨cs.takeWhile isBlank, (cs.dropWhile isBlank).rtakeWhile isBlank, ?_,
      fun c hc => List.mem_takeWhile_imp hc, fun c hc => List.mem_rtakeWhile_imp hc⟩
    rw [trim_eq, List.append_assoc, List.rdropWhile_append_rtakeWhile,
      List.takeWhile_append_dropWhile]
  begins c hc := by
    -- What is dropped behind leaves the beginning as it is.
    rcases List.rdropWhile_prefix isBlank (l := cs.dropWhile isBlank) with ⟨dropped, hdropped⟩
    have hhead : (cs.dropWhile isBlank).head? = some c := by
      rw [← hdropped, List.head?_append, ← trim_eq, Option.mem_def.mp hc]
      rfl
    -- What is first after the blanks is no blank.
    have hfirst := List.head?_dropWhile_not isBlank cs
    rw [hhead] at hfirst
    exact hfirst
  ends c hc := by
    rw [trim_eq] at hc
    rcases List.mem_getLast?_eq_getLast hc with ⟨hne, rfl⟩
    exact Bool.eq_false_iff.mpr (List.rdropWhile_last_not isBlank _ hne)

theorem trims_iff : Trims cs mid ↔ mid = trim cs :=
  ⟨Trims.eq_trim, fun h => h ▸ trims_trim cs⟩

end Trimming

section Suffix

/-- No letter becomes a point. -/
theorem eq_point_of_toLower {c : Char} (h : c.toLower = '.') : c = '.' := by
  by_cases halnum : c.isAlphanum = true
  · have hpoint := isAlphanum_toLower halnum
    rw [h] at hpoint
    exact absurd hpoint (by decide)
  · unfold Char.toLower at h
    split at h
    · next hupper =>
        rw [isAlphanum_eq, decide_eq_true hupper] at halnum
        exact absurd rfl halnum
    · exact h

theorem exists_of_isVueSuffix {suffix : List Char} (h : IsVueSuffix suffix) :
    ∃ v u e, suffix = ['.', v, u, e] ∧ [v, u, e].map Char.toLower = ['v', 'u', 'e'] := by
  rcases List.map_eq_cons_iff.mp h with ⟨c, vue, rfl, hc, hvue⟩
  rcases List.map_eq_cons_iff.mp hvue with ⟨v, ue, rfl, hv, hue⟩
  rcases List.map_eq_cons_iff.mp hue with ⟨u, es, rfl, hu, hes⟩
  rcases List.map_eq_singleton_iff.mp hes with ⟨e, rfl, he⟩
  rw [eq_point_of_toLower hc]
  exact ⟨v, u, e, rfl, by simp only [List.map_cons, List.map_nil, hv, hu, he]⟩

variable {cs front suffix : List Char}

/-- A suffix is dropped, and just once. -/
theorem dropVueSuffix_append (h : IsVueSuffix suffix) :
    dropVueSuffix (front ++ suffix) = front := by
  rcases exists_of_isVueSuffix h with ⟨v, u, e, rfl, hletters⟩
  have hreverse : (front ++ ['.', v, u, e]).reverse = e :: u :: v :: '.' :: front.reverse := by
    rw [List.reverse_append]
    rfl
  simp only [dropVueSuffix, hreverse, hletters, if_true, List.reverse_reverse]

/-- Without a suffix nothing is dropped. -/
theorem dropVueSuffix_of_forall_not
    (h : ∀ front suffix, cs = front ++ suffix → ¬IsVueSuffix suffix) : dropVueSuffix cs = cs := by
  unfold dropVueSuffix
  split
  · next e u v rest hreverse =>
      split
      · next hletters =>
          have hcs : cs = rest.reverse ++ ['.', v, u, e] := by
            rw [← cs.reverse_reverse, hreverse]
            simp
          -- Four characters that are recognised would be a suffix.
          refine absurd ?_ (h _ _ hcs)
          rw [IsVueSuffix, List.map_cons, hletters]
          rfl
      · rfl
  · rfl

/-- Exactly one text is left of a name. -/
theorem cleans_iff {name : String} {clean : List Char} :
    Cleans name clean ↔ clean = cleanName name := by
  simp only [Cleans, trims_iff, exists_eq_left, cleanName]
  constructor
  · rintro (⟨suffix, hsuffix, hmid⟩ | ⟨hmid, hnone⟩)
    · rw [hmid, dropVueSuffix_append hsuffix]
    · rw [dropVueSuffix_of_forall_not hnone, hmid]
  · rintro rfl
    by_cases h : ∃ front suffix, trim name.toList = front ++ suffix ∧ IsVueSuffix suffix
    · rcases h with ⟨front, suffix, hmid, hsuffix⟩
      rw [hmid, dropVueSuffix_append hsuffix]
      exact .inl ⟨suffix, hsuffix, rfl⟩
    · have hnone : ∀ front suffix, trim name.toList = front ++ suffix → ¬IsVueSuffix suffix :=
        fun front suffix hmid hsuffix => h ⟨front, suffix, hmid, hsuffix⟩
      exact .inr ⟨(dropVueSuffix_of_forall_not hnone).symm, hnone⟩

end Suffix

section Checking

theorem isNameStart_iff {c : Char} : isNameStart c ↔ IsLetter c := by
  have heq : isNameStart c = (decide ('A'.val ≤ c.val ∧ c.val ≤ 'Z'.val)
      || decide ('a'.val ≤ c.val) && decide (c.val ≤ 'z'.val)) := rfl
  simp only [heq, Bool.or_eq_true, Bool.and_eq_true, decide_eq_true_eq]
  exact Iff.rfl

theorem isNameChar_iff {c : Char} :
    isNameChar c ↔ IsLetter c ∨ IsDigit c ∨ c = '-' ∨ c = '_' := by
  have hdigit : c.isDigit = (decide ('0'.val ≤ c.val) && decide (c.val ≤ '9'.val)) := rfl
  simp only [isNameChar, Char.isAlphanum, Bool.or_eq_true, beq_iff_eq, or_assoc, hdigit,
    Bool.and_eq_true, decide_eq_true_eq]
  exact or_congr_left isNameStart_iff

variable {clean : List Char}

/-- A line feed at the end of a text is one at the end of what is behind its first
    character. -/
theorem exists_lineFeed_cons_iff {p : List Char → Prop} {c : Char} {cs : List Char}
    (h : p [] → c :: cs ≠ ['\n']) :
    (∃ front, p front ∧ c :: cs = front ++ ['\n'])
      ↔ ∃ front, p (c :: front) ∧ cs = front ++ ['\n'] := by
  constructor
  · rintro ⟨front, hfront, heq⟩
    cases front with
    | nil => exact absurd heq (h hfront)
    | cons d front =>
        rcases List.cons.inj heq with ⟨rfl, rfl⟩
        exact ⟨front, hfront, rfl⟩
  · rintro ⟨front, hfront, rfl⟩
    exact ⟨c :: front, hfront, rfl⟩

/-- A line feed may come last, but nowhere else. -/
theorem isNameTail_iff : isNameText.isNameTail clean ↔ (∀ c ∈ clean, isNameChar c)
    ∨ ∃ front, (∀ c ∈ front, isNameChar c) ∧ clean = front ++ ['\n'] := by
  fun_induction isNameText.isNameTail clean with
  | case1 => exact iff_of_true rfl (.inl (List.forall_mem_nil _))
  | case2 => exact iff_of_true rfl (.inr ⟨[], List.forall_mem_nil _, rfl⟩)
  | case3 c cs hlast ih =>
      -- The character is of a name, and only what is behind it can end in a line feed.
      have hne : c :: cs ≠ ['\n'] := fun heq =>
        hlast (List.cons.inj heq).1 (List.cons.inj heq).2
      rw [Bool.and_eq_true, ih, exists_lineFeed_cons_iff fun _ => hne]
      simp only [List.forall_mem_cons, and_assoc, exists_and_left, and_or_left]

theorem followsGrammar_cons_iff {c : Char} {cs : List Char} :
    FollowsGrammar (c :: cs) ↔ isNameStart c ∧ ∀ d ∈ cs, isNameChar d := by
  simp only [isNameStart_iff, isNameChar_iff]
  constructor
  · rintro ⟨⟨_, ⟨⟩, hletter⟩, hall⟩
    exact ⟨hletter, fun d hd => hall d (List.mem_cons_of_mem c hd)⟩
  · rintro ⟨hletter, hall⟩
    exact ⟨⟨c, rfl, hletter⟩, List.forall_mem_cons.mpr ⟨.inl hletter, hall⟩⟩

theorem not_followsGrammar_nil : ¬FollowsGrammar [] := fun h => by
  rcases h.begins with ⟨c, hc, _⟩
  cases hc

/-- The check is the grammar, but for a line feed at the end. -/
theorem isNameText_iff : isNameText clean
    ↔ FollowsGrammar clean ∨ ∃ front, FollowsGrammar front ∧ clean = front ++ ['\n'] := by
  cases clean with
  | nil =>
      refine iff_of_false nofun ?_
      rintro (h | ⟨front, _, heq⟩)
      · exact not_followsGrammar_nil h
      · exact List.append_ne_nil_of_right_ne_nil front (List.cons_ne_nil _ _) heq.symm
  | cons c cs =>
      rw [isNameText, Bool.and_eq_true, isNameTail_iff,
        exists_lineFeed_cons_iff fun h => absurd h not_followsGrammar_nil]
      simp only [followsGrammar_cons_iff, and_assoc, exists_and_left, and_or_left]

theorem ne_nil_of_isNameText (h : isNameText clean) : clean ≠ [] := by
  rintro rfl
  exact absurd h nofun

theorem nameProblem?_eq (name : String) :
    nameProblem? name = if cleanName name = [] then some .empty
      else if isNameText (cleanName name) then none else some .malformed := by
  simp only [nameProblem?, List.isEmpty_iff]

/-- An empty name does not pass the check either, so that it needs no case of its own. -/
theorem nameProblem?_eq_none_iff {name : String} :
    nameProblem? name = none ↔ isNameText (cleanName name) := by
  rw [nameProblem?_eq]
  by_cases hempty : cleanName name = []
  · rw [if_pos hempty]
    exact iff_of_false nofun fun htext => ne_nil_of_isNameText htext hempty
  · rw [if_neg hempty]
    by_cases htext : isNameText (cleanName name) = true
    · rw [if_pos htext]
      exact iff_of_true rfl htext
    · rw [if_neg htext]
      exact iff_of_false nofun htext

theorem nameProblem?_eq_empty_iff {name : String} :
    nameProblem? name = some .empty ↔ cleanName name = [] := by
  rw [nameProblem?_eq]
  by_cases hempty : cleanName name = []
  · rw [if_pos hempty]
    exact iff_of_true rfl hempty
  · rw [if_neg hempty]
    refine iff_of_false (fun h => ?_) hempty
    split at h <;> cases h

/-- The two messages differ, so a message tells the problem. -/
theorem message_injective : Function.Injective NameProblem.message := by
  intro p q h
  cases p <;> cases q
  · rfl
  · exact absurd h (by decide)
  · exact absurd h (by decide)
  · rfl

end Checking

/-- What is said of every name: it depends on the one text that is left of it, and
    what is accepted follows the grammar up to a line feed at the end. -/
theorem nameProblem?_verdict (name : String) :
    ∃ clean, (∀ clean', Cleans name clean' ↔ clean' = clean)
      ∧ Verdict clean ((nameProblem? name).map NameProblem.message) := by
  have haccepted : (nameProblem? name).map NameProblem.message = none
      ↔ FollowsGrammar (cleanName name)
        ∨ ∃ front, FollowsGrammar front ∧ cleanName name = front ++ ['\n'] := by
    rw [Option.map_eq_none_iff, nameProblem?_eq_none_iff, isNameText_iff]
  have hproblem (p : NameProblem) : (nameProblem? name).map NameProblem.message = some p.message
      ↔ nameProblem? name = some p := by
    rw [← Option.map_some, (Option.map_injective message_injective).eq_iff]
  refine ⟨cleanName name, fun _ => cleans_iff, haccepted, ?_, ?_, fun hlast => ?_⟩
  · -- Each message stands for one problem.
    exact (hproblem .empty).trans nameProblem?_eq_empty_iff
  · refine (hproblem .malformed).trans ?_
    rw [ne_eq, ne_eq, Option.map_eq_none_iff, ← nameProblem?_eq_empty_iff]
    rcases nameProblem? name with _ | (_ | _) <;> simp
  · rw [haccepted, or_iff_left]
    rintro ⟨front, _, heq⟩
    rw [heq, List.getLast?_concat] at hlast
    exact hlast rfl

/-- A line feed right before the suffix is let through, which the grammar does not
    have. -/
theorem lineFeed_accepted :
    Cleans "a\n.vue" ['a', '\n'] ∧ ¬FollowsGrammar ['a', '\n']
      ∧ (nameProblem? "a\n.vue").map NameProblem.message = none := by
  refine ⟨cleans_iff.mpr (by decide +kernel), fun h => ?_, by decide +kernel⟩
  exact absurd ((followsGrammar_cons_iff.mp h).2 '\n' List.mem_cons_self) (by decide)

-- A blank there is not.
example : nameProblem? "a .vue" = some .malformed := by decide +kernel

end Scaffold
