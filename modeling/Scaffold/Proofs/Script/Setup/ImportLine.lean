import Mathlib.Data.List.Basic
import Scaffold.Script.Setup

/-!
# The Import Line

What the first line of a setup script can hold, and how it is read back.

The names on the line are some of a fixed list, in the order of that list. So
the line is written with few characters, and in particular with none of those
that make a call, a property access or a declaration. Reading the line as a
reader of the import does, between its braces and at its commas, gives the
imported names again; braces with nothing but blanks between them give none.

## Main definitions

* `importableNames`: The names that an import line can hold.
* `importCharacters`: The characters that an import line can hold.
* `readImport?`: The names that a line imports, if it is an import.

## Theorems

* `importedNames_sublist`: Importable names are imported in their order.
* `mem_importCharacters`: An import line is written with its own characters.
* `readImport?_importLine`: An import line reads back as the imported names.
-/

namespace Scaffold.Script.Setup

/-- The names that an import line can hold, in the order in which it holds
    them. -/
def importableNames : List String :=
  ["computed", "watch", "onBeforeMount", "onMounted", "onBeforeUpdate", "onUpdated",
    "onActivated", "onDeactivated", "onBeforeUnmount", "onUnmounted", "onErrorCaptured",
    "onRenderTracked", "onRenderTriggered"]

theorem importableNames_eq :
    importableNames = ["computed", "watch"] ++ Hook.inSetup.filterMap Hook.setupName? :=
  rfl

/-- Importable names are imported in their order, each at most once. -/
theorem importedNames_sublist (ctx : Context) :
    (importedNames ctx).Sublist importableNames := by
  have hname : ∀ (cond : Bool) (n : String),
      (if cond then [n] else []).Sublist [n] := by
    intro cond n
    cases cond
    · exact List.nil_sublist [n]
    · exact List.Sublist.refl [n]
  rw [importableNames_eq, importedNames]
  exact ((hname _ "computed").append (hname _ "watch")).append
    (List.filter_sublist.filterMap Hook.setupName?)

/-- The characters that an import line can hold. -/
def importCharacters : List Char :=
  "import \x7b, \x7d from 'vue'".toList ++ importableNames.flatMap String.toList

/-- The characters by their definition, as an equation to rewrite with. -/
theorem importCharacters_eq :
    importCharacters
      = "import \x7b, \x7d from 'vue'".toList ++ importableNames.flatMap String.toList :=
  rfl

/-- What is in a list of parts that are put together is in a part or in what stands between them.
    The induction takes two parts at a time, since nothing stands behind the last one. -/
theorem mem_of_mem_intercalate {α : Type} {a : α} {sep : List α} {parts : List (List α)}
    (h : a ∈ sep.intercalate parts) : a ∈ sep ∨ ∃ part ∈ parts, a ∈ part := by
  induction parts with
  | nil => exact absurd h List.not_mem_nil
  | cons p ps ih =>
      cases ps with
      | nil =>
          rw [List.intercalate_singleton] at h
          exact Or.inr ⟨p, List.mem_singleton_self p, h⟩
      | cons q qs =>
          rw [List.intercalate_cons_cons, List.mem_append, List.mem_append] at h
          rcases h with (hp | hsep) | hrest
          · exact Or.inr ⟨p, List.mem_cons_self, hp⟩
          · exact Or.inl hsep
          · rcases ih hrest with hsep | ⟨part, hpart, ha⟩
            · exact Or.inl hsep
            · exact Or.inr ⟨part, List.mem_cons_of_mem p hpart, ha⟩

/-- An import line as its two ends and the names with commas between them. -/
theorem toList_importLine (ctx : Context) :
    (importLine ctx).toList
      = "import \x7b ".toList
        ++ ", ".toList.intercalate ((importedNames ctx).map String.toList)
        ++ " \x7d from 'vue'".toList := by
  rw [importLine, String.toList_append, String.toList_append, String.toList_intercalate]

/-- The middle of an import line has commas, blanks and characters of importable names. -/
theorem mem_of_mem_names {ctx : Context} {c : Char}
    (h : c ∈ ", ".toList.intercalate ((importedNames ctx).map String.toList)) :
    c ∈ ", ".toList ∨ c ∈ importableNames.flatMap String.toList := by
  rcases mem_of_mem_intercalate h with hsep | ⟨part, hpart, hc⟩
  · exact Or.inl hsep
  · rcases List.mem_map.mp hpart with ⟨n, hn, rfl⟩
    exact Or.inr (List.mem_flatMap.mpr ⟨n, (importedNames_sublist ctx).subset hn, hc⟩)

/-- An import line is written with its own characters. So a phrase with any other character is not
    on the line, whichever names the line has. -/
theorem mem_importCharacters {ctx : Context} {c : Char} (h : c ∈ (importLine ctx).toList) :
    c ∈ importCharacters := by
  rw [importCharacters_eq, List.mem_append]
  -- The three literals of the line are within the one that the characters begin with.
  rw [toList_importLine, List.mem_append, List.mem_append] at h
  have hframe : "import \x7b ".toList ++ ", ".toList ++ " \x7d from 'vue'".toList
      ⊆ "import \x7b, \x7d from 'vue'".toList := by
    simp -index only [String.toList_ofList]
    decide
  rw [List.append_subset, List.append_subset] at hframe
  rcases h with (hopen | hnames) | hclose
  · exact Or.inl (hframe.1.1 hopen)
  · exact (mem_of_mem_names hnames).imp_left fun hsep => hframe.1.2 hsep
  · exact Or.inl (hframe.2 hclose)

/-- The names in a text between braces: it is cut at commas, and what stands
    between two of them is read without leading blanks, if there is anything. -/
def readNames (cs : List Char) : List String :=
  (((cs.splitOn ',').map (List.dropWhile (· == ' '))).filter fun n => !n.isEmpty).map
    String.ofList

/-- The names that a line imports, if it is an import. -/
def readImport? (line : List Char) : Option (List String) :=
  ((line.dropPrefix? "import \x7b ".toList).bind fun rest =>
    rest.dropSuffix? " \x7d from 'vue'".toList).map readNames

/-- A name as it can stand between braces: there is something to it, and it
    holds neither a comma nor a blank. -/
def IsName (n : String) : Prop :=
  n.toList ≠ [] ∧ ',' ∉ n.toList ∧ ' ' ∉ n.toList

instance (n : String) : Decidable (IsName n) :=
  inferInstanceAs (Decidable (_ ∧ _))

theorem isName_of_mem_importableNames : ∀ n ∈ importableNames, IsName n := by
  decide +kernel

section Reading

variable {n : String}

/-- A name has no leading blanks to drop. -/
theorem dropWhile_toList_of_isName (h : IsName n) :
    n.toList.dropWhile (· == ' ') = n.toList := by
  rcases List.exists_cons_of_ne_nil h.1 with ⟨c, cs, hcs⟩
  have hc : c ≠ ' ' := by
    rintro rfl
    exact h.2.2 (hcs ▸ List.mem_cons_self)
  rw [hcs, List.dropWhile_cons, if_neg (by rwa [beq_iff_eq])]

/-- A blank at the beginning makes no difference: it is dropped from the first piece, and the cuts
    are where they were. -/
theorem readNames_blank (cs : List Char) : readNames (' ' :: cs) = readNames cs := by
  rcases List.exists_cons_of_ne_nil (List.splitOn_ne_nil ',' cs) with ⟨part, parts, hparts⟩
  unfold readNames
  rw [List.splitOn_cons_eq_if_modifyHead, if_neg (by decide), hparts]
  rfl

/-- A name by itself is read as that name. -/
theorem readNames_name (h : IsName n) : readNames n.toList = [n] := by
  unfold readNames
  rw [List.splitOn_eq_singleton h.2.1, List.map_singleton, dropWhile_toList_of_isName h,
    List.filter_cons_of_pos (by rw [List.isEmpty_eq_false_iff.mpr h.1]; rfl),
    List.map_cons, String.ofList_toList]
  rfl

/-- Up to the first comma there is one name, and what comes after the comma is read by itself. -/
theorem readNames_comma (h : IsName n) (cs : List Char) :
    readNames (n.toList ++ ',' :: cs) = n :: readNames cs := by
  unfold readNames
  rw [List.splitOn_append_cons_self_of_not_mem h.2.1, List.map_cons,
    dropWhile_toList_of_isName h,
    List.filter_cons_of_pos (by rw [List.isEmpty_eq_false_iff.mpr h.1]; rfl),
    List.map_cons, String.ofList_toList]

end Reading

/-- Names with commas and blanks between them are read back. The induction follows the commas, so
    that the last name is a case of its own. -/
theorem readNames_intercalate {ns : List String} (h : ∀ n ∈ ns, IsName n) :
    readNames (", ".toList.intercalate (ns.map String.toList)) = ns := by
  induction ns with
  | nil => rfl
  | cons n ns ih =>
      have hn := h n List.mem_cons_self
      cases ns with
      | nil =>
          rw [List.map_singleton, List.intercalate_singleton]
          exact readNames_name hn
      | cons m ms =>
          -- The comma ends the name, and the blank after it is dropped.
          have hrest := ih fun k hk => h k (List.mem_cons_of_mem n hk)
          rw [List.map_cons] at hrest
          rw [List.map_cons, List.map_cons, List.intercalate_cons_cons, List.append_assoc]
          have hsep : ", ".toList = [',', ' '] := rfl
          rw [hsep, List.cons_append, List.cons_append, List.nil_append, readNames_comma hn,
            readNames_blank, ← hsep, hrest]

/-- An import line reads back as the imported names. -/
theorem readImport?_importLine (ctx : Context) :
    readImport? (importLine ctx).toList = some (importedNames ctx) := by
  have hnames : ∀ n ∈ importedNames ctx, IsName n := fun n hn =>
    isName_of_mem_importableNames n ((importedNames_sublist ctx).subset hn)
  -- The names between the braces are not looked at here: the ends are cut off whatever they are.
  have hsuffix (names : List Char) :
      (names ++ " \x7d from 'vue'".toList).dropSuffix? " \x7d from 'vue'".toList = some names :=
    List.dropSuffix?_eq_some_iff.mpr ⟨_, rfl, BEq.refl _⟩
  rw [readImport?, toList_importLine, List.append_assoc,
    List.dropPrefix?_append_of_beq _ (BEq.refl _), Option.bind_some, hsuffix, Option.map_some,
    readNames_intercalate hnames]

-- A line which imports nothing still keeps both blanks between its braces.
example : readImport? "import \x7b  \x7d from 'vue'".toList = some [] := by rfl

end Scaffold.Script.Setup
