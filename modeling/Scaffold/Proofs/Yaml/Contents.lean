import Scaffold.Proofs.Settings.Presentation
import Scaffold.Proofs.Yaml.Groups
import Scaffold.Yaml.Document

/-!
# Contents of Documents

What a document of groups is read as: the mapping that was written.

Tokens are put together in two rounds. The first makes nodes of them, and its fuel
is for the depth of calls: each entry costs one more than the entries after it,
and a group as much as its values on top. The second gives values to the nodes.
There it matters that every plain text could also spell something that is not a
text, so names and values have to be read as what they are, and that no name may
occur twice among its neighbours. A name that is a word is never the key of a
merge.

## Main definitions

* `Pair.node`, `Group.node`: The nodes that tokens make up.
* `Pair.IsReadable`, `Group.IsReadable`: What is read as what it is.
* `Describes`: Nodes that make up an entry.

## Theorems

* `Node.readEntries_entry`: An entry is read, and then the others.
* `Node.ofTokens?_groups`: The tokens of a document make up its groups.
* `entryValues_of_describes`: Entries are added one by one.
* `parse_written`: A document is read as what was written.
-/

namespace Scaffold.Yaml

open Settings (Key Mapping Value mappingOf)

/-- The nodes of a value and its name. -/
def Pair.node (d : Pair) : Node × Node :=
  (.scalar none d.1.toList true, .scalar none d.2.shown.toList true)

/-- The nodes of a group and its name. -/
def Group.node (g : Group) : Node × Node :=
  (.scalar none g.1.toList true, .mapping none (g.2.map Pair.node))

/-- A group as a value with a name. -/
def Group.pair (g : Group) : Pair := (g.1, .map (mappingOf g.2))

namespace Node

section Structure

/-- What may come instead of a key or a value that is left out. -/
abbrev stops : List Token := [.key, .value, .blockEnd]

theorem readUnless_scalar (fuel : Nat) (text : List Char) (plain : Bool) (rest : List Token) :
    readUnless (fuel + 2) .afterKey stops (.scalar text plain :: rest)
      = .ok (.scalar none text plain, rest) := by
  simp [readUnless, read, isNext, readAnchor]

/-- A block is read as the mapping of its entries, except within brackets. -/
theorem read_mapping (fuel : Nat) {place : Place} (hplace : place ≠ .flow) (rest : List Token) :
    read (fuel + 1) place (.blockMappingStart :: rest)
      = (readEntries fuel rest).map fun r => (.mapping none r.1, r.2) := by
  rw [read]
  · cases place with
    | flow => exact absurd rfl hplace
    | block =>
        cases h : readEntries fuel rest <;> simp [readAnchor, h, bind, Except.bind, Except.map]
    | afterKey =>
        cases h : readEntries fuel rest <;> simp [readAnchor, h, bind, Except.bind, Except.map]
  · exact nofun

/-- A name is read with what comes after it, and then what comes after both. -/
theorem readEntries_entry {fuel : Nat} {rest rest' : List Token} {v : Node}
    (h : readUnless (fuel + 1) .afterKey stops rest = .ok (v, rest')) (name : List Char) :
    readEntries (fuel + 3) (.key :: .scalar name true :: .value :: rest)
      = (readEntries (fuel + 2) rest').map fun r => ((.scalar none name true, v) :: r.1, r.2) := by
  rw [readEntries]
  simp only [readUnless_scalar, bind, Except.bind, readValue, h]
  cases readEntries (fuel + 2) rest' with
  | error e => rfl
  | ok r => rfl

/-- The values of a block are read up to its end. -/
theorem readEntries_pairs (ds : List Pair) (rest : List Token) (fuel : Nat) :
    readEntries (fuel + ds.length + 4) (ds.flatMap Pair.tokens ++ .blockEnd :: rest)
      = .ok (ds.map Pair.node, rest) := by
  induction ds with
  | nil => rw [List.flatMap_nil, List.nil_append, readEntries, List.map_nil]
  | cons d ds ih =>
      -- The entry takes one unit of fuel, and leaves what the others need.
      have hentry := readEntries_entry (readUnless_scalar (fuel + ds.length + 1)
        d.2.shown.toList true (ds.flatMap Pair.tokens ++ .blockEnd :: rest)) d.1.toList
      rw [ih] at hentry
      exact hentry

/-- A block of values is read, together with its end. -/
theorem readUnless_pairs (ds : List Pair) (rest : List Token) (fuel : Nat) :
    readUnless (fuel + ds.length + 6) .afterKey stops
        (.blockMappingStart :: (ds.flatMap Pair.tokens ++ .blockEnd :: rest))
      = .ok (.mapping none (ds.map Pair.node), rest) := by
  have hread := read_mapping (fuel + ds.length + 4) (by decide : Place.afterKey ≠ .flow)
    (ds.flatMap Pair.tokens ++ .blockEnd :: rest)
  rw [readEntries_pairs] at hread
  exact hread

/-- The groups are read up to the end. -/
theorem readEntries_groups (gs : List Group) (rest : List Token) {fuel : Nat}
    (hfuel : (gs.flatMap Group.tokens).length + 4 ≤ fuel) :
    readEntries fuel (gs.flatMap Group.tokens ++ .blockEnd :: rest)
      = .ok (gs.map Group.node, rest) := by
  -- A group leaves less fuel for the others, but they also have fewer tokens.
  induction gs generalizing fuel with
  | nil =>
      rcases Nat.exists_eq_add_of_le' (Nat.le_of_add_left_le hfuel) with ⟨m, rfl⟩
      rw [List.flatMap_nil, List.nil_append, readEntries, List.map_nil]
  | cons g gs ih =>
      have hlength : ((g :: gs).flatMap Group.tokens).length
          = (g.2.flatMap Pair.tokens).length + 5 + (gs.flatMap Group.tokens).length := by
        rw [List.flatMap_cons, List.length_append, Group.tokens]
        simp only [List.length_cons, List.length_append, List.length_nil]
      have hpairs : g.2.length ≤ (g.2.flatMap Pair.tokens).length := by
        simp only [List.length_flatMap, Pair.tokens, List.length_cons, List.length_nil,
          List.map_const', List.sum_replicate_nat]
        omega
      rcases Nat.exists_eq_add_of_le' (show g.2.length + 8 ≤ fuel by omega) with ⟨m, rfl⟩
      have hentry := readEntries_entry (readUnless_pairs g.2
        (gs.flatMap Group.tokens ++ .blockEnd :: rest) m) g.1.toList
      rw [ih (by omega)] at hentry
      rw [List.flatMap_cons, Group.tokens]
      simp only [List.cons_append, List.append_assoc, List.nil_append]
      exact hentry

/-- The tokens of a document make up the mapping of its groups. -/
theorem ofTokens?_groups (gs : List Group) :
    ofTokens? (.blockMappingStart :: (gs.flatMap Group.tokens ++ [.blockEnd]))
      = .ok (.mapping none (gs.map Group.node)) := by
  have hread := read_mapping (4 * ((gs.flatMap Group.tokens).length + 2) + 3)
    (by decide : Place.block ≠ .flow) (gs.flatMap Group.tokens ++ [.blockEnd])
  rw [readEntries_groups gs [] (by omega)] at hread
  have hlength : (Token.blockMappingStart :: (gs.flatMap Group.tokens ++ [.blockEnd])).length
      = (gs.flatMap Group.tokens).length + 2 := by
    rw [List.length_cons, List.length_append, List.length_singleton]
  unfold ofTokens?
  rw [hlength]
  simp only [hread]
  rfl

end Structure

end Node

/-- Where there are no aliases, none is undefined. -/
theorem undefinedAlias?_eq_none {ts : List Token} (h : ∀ name, Token.alias name ∉ ts)
    (known : List (List Char)) : undefinedAlias? known ts = none := by
  induction ts generalizing known with
  | nil => rfl
  | cons t ts ih =>
      have hothers : ∀ name, Token.alias name ∉ ts := fun name hmem =>
        h name (List.mem_cons_of_mem t hmem)
      cases t with
      | «alias» name => exact absurd List.mem_cons_self (h name)
      | anchor name => exact ih hothers _
      | _ => exact ih hothers _

/-- A value whose name and spelling are read as what they are. -/
structure Pair.IsReadable (d : Pair) : Prop extends d.IsPlain where
  reads_name : plainValue false d.1.toList = .ok (.str d.1)
  reads_value : plainValue false d.2.shown.toList = .ok d.2

/-- A group of such values. No two have the same name. -/
structure Group.IsReadable (g : Group) : Prop where
  name : IsWord g.1.toList
  reads_name : plainValue false g.1.toList = .ok (.str g.1)
  nonempty : g.2 ≠ []
  pairs : ∀ d ∈ g.2, d.IsReadable
  distinct : (g.2.map Prod.fst).Nodup

section Values

/-- Two nodes make up an entry with a text for its key. -/
structure Describes (ns : Node × Node) (d : Pair) : Prop where
  key : ns.1.value [] = .ok (.str d.1, [])
  not_merge : ns.1.isMergeKey [] = false
  value : ns.2.value [] = .ok (d.2, [])

theorem hasKey_mappingOf {ds : List Pair} {name : String} (h : name ∉ ds.map Prod.fst) :
    hasKey (mappingOf ds) (.str name) = false := by
  rw [hasKey, List.any_eq_false]
  intro e he
  rcases List.mem_map.mp he with ⟨d, hd, rfl⟩
  exact fun hsame => h (List.mem_map.mpr ⟨d, hd, beq_iff_eq.mp hsame⟩)

/-- Entries are added one by one, if their keys are not there yet. -/
theorem entryValues_of_describes {ns : List (Node × Node)} {ds : List Pair}
    (h : List.Forall₂ Describes ns ds) (before : List Pair)
    (hdistinct : ((before ++ ds).map Prod.fst).Nodup) :
    Node.entryValues [] { own := mappingOf before } ns
      = .ok ({ own := mappingOf (before ++ ds) }, []) := by
  -- Those that have been added already are put to the ones before.
  induction h generalizing before with
  | nil => rw [List.append_nil, Node.entryValues]
  | @cons n d ns ds hd hds ih =>
      have hnew : d.1 ∉ before.map Prod.fst := by
        rw [List.map_append, List.map_cons, List.nodup_append] at hdistinct
        exact fun hmem => hdistinct.2.2 _ hmem _ List.mem_cons_self rfl
      have hadd : Entries.add { own := mappingOf before } (.str d.1) d.2
          = .ok { own := mappingOf (before ++ [d]) } := by
        rw [Entries.add, hasKey_mappingOf hnew, mappingOf, mappingOf, List.map_append]
        rfl
      have hothers := ih (before ++ [d]) (by rwa [List.append_assoc])
      rw [List.append_assoc, List.singleton_append] at hothers
      rw [Node.entryValues, hd.key]
      simp only [bind, Except.bind, hd.value, hd.not_merge, keyOf, hadd, hothers,
        Bool.false_eq_true, if_false]

/-- Nodes that make up entries make up a mapping. -/
theorem value_mapping {ns : List (Node × Node)} {ds : List Pair}
    (h : List.Forall₂ Describes ns ds) (hdistinct : (ds.map Prod.fst).Nodup) :
    (Node.mapping none ns).value [] = .ok (.map (mappingOf ds), []) := by
  rw [Node.value]
  -- Nothing has been added at first.
  have hentries := entryValues_of_describes h [] hdistinct
  simp only [Anchors.opened, bind, Except.bind]
  rw [show ({} : Entries) = { own := mappingOf [] } from rfl, hentries]
  rfl

theorem value_scalar {text : List Char} {v : Value} (h : plainValue false text = .ok v) :
    (Node.scalar none text true).value [] = .ok (v, []) := by
  rw [Node.value]
  simp only [Option.isSome_none, h, if_true]
  rfl

/-- No word is the key of a merge, as none begins with its sign. -/
theorem isMergeKey_of_isWord {text : List Char} (h : IsWord text) :
    (Node.scalar none text true).isMergeKey [] = false := by
  rw [Node.isMergeKey, Bool.true_and, beq_eq_false_iff_ne]
  rintro rfl
  exact absurd (h.leading '<' rfl) (by decide)

theorem describes_pair {d : Pair} (h : d.IsReadable) : Describes d.node d :=
  ⟨value_scalar h.reads_name, isMergeKey_of_isWord h.name, value_scalar h.reads_value⟩

theorem describes_group {g : Group} (h : g.IsReadable) : Describes g.node g.pair := by
  refine ⟨value_scalar h.reads_name, isMergeKey_of_isWord h.name, ?_⟩
  refine value_mapping ?_ h.distinct
  rw [List.forall₂_map_left_iff, List.forall₂_same]
  exact fun d hd => describes_pair (h.pairs d hd)

end Values

theorem alias_not_mem_tokens (gs : List Group) (name : List Char) :
    Token.alias name ∉ Token.blockMappingStart :: (gs.flatMap Group.tokens ++ [.blockEnd]) := by
  simp [Group.tokens, Pair.tokens]

/-- A document of groups is read as the mapping of what was written. -/
theorem parse_written {gs : List Group} (hgs : ∀ g ∈ gs, g.IsReadable) (hne : gs ≠ [])
    (hdistinct : (gs.map Prod.fst).Nodup) :
    parse (written gs) = .ok (.map (mappingOf (gs.map Group.pair))) := by
  -- What is readable is plain, so the tokens are known.
  have hplain : ∀ g ∈ gs, g.IsPlain := fun g hg =>
    ⟨(hgs g hg).name, (hgs g hg).nonempty, fun d hd => ((hgs g hg).pairs d hd).toIsPlain⟩
  have hdescribes : List.Forall₂ Describes (gs.map Group.node) (gs.map Group.pair) := by
    rw [List.forall₂_map_left_iff, List.forall₂_map_right_iff, List.forall₂_same]
    exact fun g hg => describes_group (hgs g hg)
  have hvalue := value_mapping hdescribes (by rwa [List.map_map])
  -- The tokens fit together and name no alias, so nothing is wrong.
  have hnothing : Tokens.wrong?
      ⟨.blockMappingStart :: (gs.flatMap Group.tokens ++ [.blockEnd]), none⟩ = none := by
    rw [Tokens.wrong?, undefinedAlias?_eq_none (alias_not_mem_tokens gs), Node.ofTokens?_groups]
  unfold parse
  rw [tokens_written hplain hne]
  simp only [hnothing, Node.ofTokens?_groups, bind, Except.bind]
  rw [hvalue]
  rfl

end Scaffold.Yaml
