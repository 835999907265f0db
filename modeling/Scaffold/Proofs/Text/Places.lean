import Mathlib.Data.List.Nodup
import Mathlib.Data.List.Range
import Scaffold.Proofs.Text.Occurrence

/-!
# Places in a Text

At which places a phrase begins in a text, how many these are, and in which
order those of several phrases come.

`occurrences` says which phrases follow each other but not where they stand.
Counting in it counts places. Where every phrase is listed once, and none is
the beginning of another, the places go up as the list goes on: at one place
there is at most one of them. So a text that has its markers in order is one
whose list of occurrences is the list of markers that are there.

## Main definitions

* `places`: The places at which a phrase begins.
* `frequency`: How many these are.
* `InOrder`: Markers stand in a text once each, in a given order.

## Theorems

* `places_cons`: The places in a text with one more character.
* `count_occurrences`: A phrase is listed once for each of its places.
* `pairwise_places`: The places of listed phrases go up.
* `inOrder_of_occurrences`: Markers are in order where they are listed in it.
* `frequency_pos_iff`: A phrase is counted where it occurs.
* `frequency_append_cons`: A character that a phrase lacks cuts the count.
-/

namespace Scaffold.Text

/-- The places at which a phrase begins in a text. -/
def places (p s : List Char) : List Nat :=
  (List.range s.length).filter fun i => p.isPrefixOf (s.drop i)

/-- How often a phrase occurs in a text. -/
def frequency (p s : List Char) : Nat := (places p s).length

/-- Markers stand in a text in order. One that is there stands in one place,
    one that is not there in none, and the places go up. -/
structure InOrder {α : Type} (spell : α → String) (markers : List α) (isThere : α → Bool)
    (s : List Char) : Prop where
  once : ∀ m ∈ markers, frequency (spell m).toList s = if isThere m then 1 else 0
  ascending : ((markers.filter isThere).flatMap fun m => places (spell m).toList s).Pairwise
    (· < ·)

/-- One more character in front moves all places by one, and may be one itself. -/
theorem places_cons (p : List Char) (c : Char) (cs : List Char) :
    places p (c :: cs)
      = (if p.isPrefixOf (c :: cs) then [0] else [])
        ++ (places p cs).map Nat.succ := by
  rw [places, places, List.length_cons, List.range_succ_eq_map, List.filter_cons,
    List.filter_map, List.drop_zero]
  split <;> rfl

section Occurrences

variable {α : Type} {spell : α → String} {phrases : List α}

/-- At one place there is at most one phrase, if none begins with another. -/
theorem filter_prefix_eq (hphrases : phrases.Nodup)
    (hfree : ∀ a ∈ phrases, ∀ b ∈ phrases, (spell a).toList <+: (spell b).toList → a = b)
    (s : List Char) :
    phrases.filter (fun a => (spell a).toList.isPrefixOf s) = []
      ∨ ∃ a, phrases.filter (fun a => (spell a).toList.isPrefixOf s) = [a] := by
  have hnodup := hphrases.filter fun a => (spell a).toList.isPrefixOf s
  rcases hhere : phrases.filter (fun a => (spell a).toList.isPrefixOf s) with _ | ⟨a, _ | ⟨b, l⟩⟩
  · exact Or.inl rfl
  · exact Or.inr ⟨a, rfl⟩
  · -- Of two phrases that begin here one would begin with the other.
    exfalso
    rw [hhere] at hnodup
    have ha : a ∈ phrases.filter fun a => (spell a).toList.isPrefixOf s := by
      rw [hhere]
      exact List.mem_cons_self
    have hb : b ∈ phrases.filter fun a => (spell a).toList.isPrefixOf s := by
      rw [hhere]
      exact List.mem_cons_of_mem a List.mem_cons_self
    rw [List.mem_filter, List.isPrefixOf_iff_prefix] at ha hb
    have hne : a ≠ b := (List.nodup_cons.mp hnodup).1 ∘ (· ▸ List.mem_cons_self)
    rcases List.prefix_or_prefix_of_prefix ha.2 hb.2 with hab | hba
    · exact hne (hfree a ha.1 b hb.1 hab)
    · exact hne (hfree b hb.1 a ha.1 hba).symm

variable [DecidableEq α]

/-- A phrase is listed once for each of its places. -/
theorem count_occurrences (hphrases : phrases.Nodup) {a : α} (ha : a ∈ phrases)
    (s : List Char) :
    (occurrences spell phrases s).count a = frequency (spell a).toList s := by
  rw [frequency]
  induction s with
  | nil => rfl
  | cons c cs ih =>
      rw [occurrences, places_cons, List.count_append, List.length_append, List.length_map, ih]
      congr 1
      -- It is listed here once or not at all, and the same holds for its places.
      by_cases hpre : (spell a).toList.isPrefixOf (c :: cs) = true
      · rw [List.count_filter (by exact hpre), List.count_eq_one_of_mem hphrases ha, if_pos hpre]
        rfl
      · rw [if_neg hpre, List.length_nil, List.count_eq_zero, List.mem_filter]
        exact fun hmem => hpre hmem.2

theorem places_eq_nil_of_notMem (hphrases : phrases.Nodup) {a : α} (ha : a ∈ phrases)
    {s : List Char} (hnot : a ∉ occurrences spell phrases s) :
    places (spell a).toList s = [] := by
  rw [← List.length_eq_zero_iff]
  exact (count_occurrences hphrases ha s).symm.trans (List.count_eq_zero.mpr hnot)

/-- The places of phrases that are listed once go up as the list goes on. -/
theorem pairwise_places (hphrases : phrases.Nodup)
    (hfree : ∀ a ∈ phrases, ∀ b ∈ phrases, (spell a).toList <+: (spell b).toList → a = b)
    {s : List Char} (hnodup : (occurrences spell phrases s).Nodup) :
    ((occurrences spell phrases s).flatMap fun a => places (spell a).toList s).Pairwise
      (· < ·) := by
  induction s with
  | nil => exact List.Pairwise.nil
  | cons c cs ih =>
      rw [occurrences, List.nodup_append] at hnodup
      rcases hnodup with ⟨_, hlater, hapart⟩
      -- What is listed for the rest stands one place further on.
      have hshift :
          ((occurrences spell phrases cs).flatMap fun b => places (spell b).toList (c :: cs))
          = ((occurrences spell phrases cs).flatMap fun b => places (spell b).toList cs).map
            Nat.succ := by
        rw [List.map_flatMap]
        refine List.flatMap_congr fun b hb => ?_
        have hnot : ¬ (spell b).toList.isPrefixOf (c :: cs) = true := by
          intro hpre
          have hhere : b ∈ phrases.filter fun a => (spell a).toList.isPrefixOf (c :: cs) :=
            List.mem_filter.mpr ⟨mem_of_mem_occurrences hb, hpre⟩
          exact hapart b hhere b hb rfl
        rw [places_cons, if_neg hnot, List.nil_append]
      have hup : (((occurrences spell phrases cs).flatMap fun b => places (spell b).toList cs).map
          Nat.succ).Pairwise (· < ·) :=
        (ih hlater).map Nat.succ fun _ _ => Nat.succ_lt_succ
      rw [occurrences, List.flatMap_append, hshift]
      rcases filter_prefix_eq hphrases hfree (c :: cs) with hnone | ⟨a, hone⟩
      · rw [hnone]
        exact hup
      · -- The phrase that begins here is not listed again.
        have ha : a ∈ phrases.filter fun a => (spell a).toList.isPrefixOf (c :: cs) := by
          rw [hone]
          exact List.mem_singleton_self a
        have hnot : a ∉ occurrences spell phrases cs := fun hmem => hapart a ha a hmem rfl
        rw [List.mem_filter] at ha
        have hzero : places (spell a).toList (c :: cs) = [0] := by
          rw [places_cons, if_pos ha.2, places_eq_nil_of_notMem hphrases ha.1 hnot]
          rfl
        -- The place in front comes before all that are further on.
        rw [hone, List.flatMap_singleton, hzero, List.singleton_append, List.pairwise_cons]
        refine ⟨fun i hi => ?_, hup⟩
        rcases List.mem_map.mp hi with ⟨j, _, rfl⟩
        exact Nat.succ_pos j

/-- Markers are in order where they are listed in it. -/
theorem inOrder_of_occurrences {isThere : α → Bool} (hphrases : phrases.Nodup)
    (hfree : ∀ a ∈ phrases, ∀ b ∈ phrases, (spell a).toList <+: (spell b).toList → a = b)
    {s : List Char} (h : occurrences spell phrases s = phrases.filter isThere) :
    InOrder spell phrases isThere s where
  once m hm := by
    rw [← count_occurrences hphrases hm, h]
    by_cases hthere : isThere m = true
    · rw [List.count_filter hthere, List.count_eq_one_of_mem hphrases hm, if_pos hthere]
    · rw [if_neg hthere, List.count_eq_zero, List.mem_filter]
      exact fun hmem => hthere hmem.2
  ascending := by
    have hup := pairwise_places hphrases hfree (s := s) (h ▸ hphrases.filter isThere)
    rwa [h] at hup

end Occurrences

section Frequency

variable {p : List Char}

/-- How often a phrase occurs can be read off the list for it alone. -/
theorem frequency_eq_length (p s : List Char) :
    frequency p s = (occurrences (fun _ => String.ofList p) [()] s).length := by
  have hcount : (occurrences (fun _ => String.ofList p) [()] s).count ()
      = frequency (String.ofList p).toList s :=
    count_occurrences (List.nodup_singleton ()) (List.mem_singleton_self ()) s
  rw [String.toList_ofList] at hcount
  rw [← hcount, List.count_eq_length.mpr fun _ _ => rfl]

theorem frequency_pos_iff (hp : p ≠ []) (s : List Char) : 0 < frequency p s ↔ p <:+: s := by
  have hmem : () ∈ occurrences (fun _ => String.ofList p) [()] s
      ↔ () ∈ [()] ∧ (String.ofList p).toList <:+: s :=
    mem_occurrences (by rwa [String.toList_ofList]) s
  rw [String.toList_ofList] at hmem
  rw [frequency_eq_length, List.length_pos_iff_exists_mem]
  constructor
  · rintro ⟨_, hs⟩
    exact (hmem.mp hs).2
  · exact fun hs => ⟨(), hmem.mpr ⟨List.mem_singleton_self (), hs⟩⟩

theorem frequency_eq_zero_iff (hp : p ≠ []) (s : List Char) :
    frequency p s = 0 ↔ ¬ p <:+: s := by
  rw [← frequency_pos_iff hp, Nat.not_lt, Nat.le_zero]

/-- A phrase is counted apart on both sides of a character that it lacks. -/
theorem frequency_append_cons (hp : p ≠ []) {c : Char} (hc : c ∉ p) (xs ys : List Char) :
    frequency p (xs ++ c :: ys) = frequency p xs + frequency p ys := by
  rw [frequency_eq_length, frequency_eq_length, frequency_eq_length,
    occurrences_append_cons fun _ _ => by rw [String.toList_ofList]; exact ⟨hp, hc⟩,
    List.length_append]

end Frequency

end Scaffold.Text
