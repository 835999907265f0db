import Mathlib
import Scaffold.Proofs.Settings.Listing
import Scaffold.Proofs.Settings.Presentation
import Scaffold.Proofs.Yaml.Contents
import Scaffold.Proofs.Yaml.Names
import Scaffold.Settings.Initial

/-!
# Neutrality of the Initial Settings

What the initial settings file says: nothing that would not hold without it.

The file is written without regard for how it is read, so both halves are looked at
from what they have in common, a mapping of namespaces. The lines are those of a
document of groups, whose names are read as texts and whose values as what they are
(`parse_initialChars`). The mapping presents the context that no settings change,
with every setting within its namespace, and it has no other leaves
(`presents_initialMapping`). So nothing in it is unknown, and what is made of it is
what is made of no settings at all.

## Main definitions

* `Neutral`: Settings that come to the same as none.
* `initialMapping`, `initialGroups`: What the initial file holds.
* `plainLines`: The listing of every setting with its default, line by line.

## Theorems

* `initialChars_eq`: The initial file is the document of its groups.
* `parse_initialChars`: It is read as the mapping of the settings.
* `unknownKeys_eq_nil`: Where every leaf is a setting, nothing is unknown.
* `neutral_initialMapping`: What the initial file holds is neutral.
* `listing_of_neutral`: Neutral settings are listed with their defaults.
-/

namespace Scaffold.Settings

open Yaml (Pair Group IsWord IsName plainValue)

/-- Settings that come to the same as none, without anything unknown. -/
structure Neutral (s : FlatSettings) : Prop where
  nothing_unknown : s.unknownKeys = []
  context : ∀ typed name, Source.context s.get typed name = .ok { typed, name }

/-- Every setting within its namespace, and none in the section. -/
def withinNamespace (_ : String) : Place := ⟨.outer, true⟩

/-- The context that no settings change, of a typed component without a name. -/
def unchanged : Context := { typed := true }

/-- The mapping that the initial settings file holds. -/
def initialMapping : Mapping := mappingOf (entriesAt withinNamespace unchanged .outer)

/-- The groups of the initial settings file. -/
def initialGroups : List Group :=
  checkedNamespaces.map fun space => (space, settingsWithin withinNamespace unchanged .outer space)

/-- The lines that list every setting with its default, none of them highlighted. -/
def plainLines (origin : String) : List String :=
  headerLine origin :: (Feature.all.map fun f => plainLine f.key (switchWord f.onByDefault))
    ++ [plainLine insertSpacesKey "true", plainLine tabSizeKey "2"]

section Writing

theorem settingsOf_unchanged : settingsOf unchanged = defaults.map fun d => (d.1, d.2.value) := by
  rw [settingsOf, defaults, List.map_append, List.map_map]
  rfl

theorem settingsAt_withinNamespace :
    settingsAt withinNamespace unchanged .outer true = settingsOf unchanged :=
  List.filter_eq_self.mpr fun _ _ => rfl

/-- The initial file is the document of its groups. -/
theorem initialChars_eq : initialChars = Yaml.written initialGroups := by
  rw [initialChars, initialLines, List.flatMap_assoc, Yaml.written, initialGroups, List.flatMap_map]
  refine List.flatMap_congr fun space _ => ?_
  rw [Yaml.Group.lines, settingsWithin, settingsAt_withinNamespace, settingsOf_unchanged,
    List.filter_map, List.map_map, List.flatMap_cons, List.flatMap_map, List.flatMap_map]
  simp only [String.toList_append, List.append_assoc]
  rfl

end Writing

section Reading

theorem toList_nameOf (key : String) :
    (nameOf key).toList = (key.toList.dropWhile (· != '.')).drop 1 :=
  String.toList_ofList

theorem isName_namespace : ∀ space ∈ checkedNamespaces, IsName space.toList := by decide

/-- The names of settings in their namespaces are read as texts. -/
theorem isName_nameOf {key : String} (h : key ∈ knownKeys) : IsName (nameOf key).toList := by
  -- There is one name for each feature, so this is a matter of looking at all of them.
  have hfeature : ∀ f : Feature, IsName (nameOf f.key).toList := by
    intro f
    rw [toList_nameOf]
    cases f with
    | hook h =>
        cases h <;> simp -index only [Feature.key, String.toList_ofList] <;> decide
    | _ => simp -index only [Feature.key, String.toList_ofList]; decide
  rcases List.mem_map.mp h with ⟨d, hd, rfl⟩
  rcases mem_defaults_iff.mp hd with ⟨f, rfl⟩ | rfl | rfl
  · exact hfeature f
  · decide
  · decide

/-- What a setting is written as by default is read as what it is. -/
theorem reads_shown {d : String × Value} (h : d ∈ settingsOf unchanged) :
    IsWord d.2.shown.toList ∧ plainValue false d.2.shown.toList = .ok d.2 := by
  have hswitch : ∀ b, IsWord (Value.bool b).shown.toList
      ∧ plainValue false (Value.bool b).shown.toList = .ok (.bool b) := by
    intro b
    cases b with
    | false => exact ⟨by decide, by cbv⟩
    | true => exact ⟨by decide, by cbv⟩
  rcases mem_settingsOf_iff.mp h with ⟨f, rfl⟩ | rfl | rfl
  · exact hswitch _
  · exact hswitch _
  · exact ⟨by decide, by cbv⟩

/-- Every namespace that is checked has a setting in it. -/
theorem exists_known_in_namespace :
    ∀ space ∈ checkedNamespaces, ∃ key ∈ knownKeys, namespaceOf key = space := by
  have hfeature : ∀ f : Feature, f.key ∈ knownKeys := fun f =>
    List.mem_map_of_mem (mem_defaults_iff.mpr (.inl ⟨f, rfl⟩))
  have hwidth : tabSizeKey ∈ knownKeys :=
    List.mem_map_of_mem (mem_defaults_iff.mpr (.inr (.inr rfl)))
  simp only [checkedNamespaces, List.forall_mem_cons]
  exact ⟨⟨_, hfeature .vModelTemplate, by decide⟩, ⟨_, hfeature .name, by decide⟩,
    ⟨_, hfeature .lifecycleHooks, by decide⟩,
    ⟨_, hfeature .useDefineModel, by decide⟩, ⟨_, hwidth, by decide⟩,
    List.forall_mem_nil _⟩

/-- Each group of the initial file can be read. -/
theorem isReadable_of_mem_initialGroups {g : Group} (hg : g ∈ initialGroups) : g.IsReadable := by
  rcases List.mem_map.mp hg with ⟨space, hspace, rfl⟩
  have hname := isName_namespace space hspace
  refine ⟨hname.toIsWord, ?_, ?_, fun d hd => ?_, nodup_names_settingsWithin .outer space⟩
  · rw [Yaml.plainValue_of_isName hname, String.ofList_toList]
  · -- No group is empty, since every namespace has a setting.
    rcases exists_known_in_namespace space hspace with ⟨key, hkey, hin⟩
    rw [← map_fst_settingsOf unchanged] at hkey
    rcases List.mem_map.mp hkey with ⟨e, he, rfl⟩
    refine List.ne_nil_of_mem (List.mem_map_of_mem (a := e) (List.mem_filter.mpr ⟨?_, ?_⟩))
    · rw [settingsAt_withinNamespace]
      exact he
    · exact beq_iff_eq.mpr hin
  · rcases List.mem_map.mp hd with ⟨e, he, rfl⟩
    have hsetting : e ∈ settingsOf unchanged :=
      (mem_settingsAt_iff.mp (List.mem_of_mem_filter he)).1
    have hname := isName_nameOf (mem_knownKeys hsetting)
    rcases reads_shown hsetting with ⟨hword, hvalue⟩
    refine ⟨⟨hname.toIsWord, hword⟩, ?_, hvalue⟩
    rw [Yaml.plainValue_of_isName hname, String.ofList_toList]

/-- The initial file is read as the mapping of the settings in their namespaces. -/
theorem parse_initialChars : Yaml.parse initialChars = .ok (.map initialMapping) := by
  -- No group is there twice, so none is lost when the document is read.
  have hdistinct : (initialGroups.map Prod.fst).Nodup := by
    rw [initialGroups, List.map_map]
    simpa only [Function.comp_def, List.map_id'] using nodup_checkedNamespaces
  have hflat : settingsAt withinNamespace unchanged .outer false = [] :=
    List.filter_eq_nil_iff.mpr fun _ _ => nofun
  rw [initialChars_eq,
    Yaml.parse_written (fun g => isReadable_of_mem_initialGroups) nofun hdistinct,
    initialMapping, entriesAt, hflat, List.nil_append, initialGroups, List.map_map]
  rfl

end Reading

section Neutrality

variable {s : FlatSettings} {data : Mapping}

/-- Where every leaf is a setting, nothing is unknown. -/
theorem unknownKeys_eq_nil (h : flattenSections data = .ok s)
    (hleaves : ∀ level, ∀ l ∈ leavesAt data level, l.key ∈ knownKeys) : s.unknownKeys = [] := by
  have hnone : s.entries.filter FlatSettings.isUnknown = [] := by
    rw [List.filter_eq_nil_iff]
    intro e he hunknown
    -- It would have the value of a leaf with its key, but there is no such leaf.
    simp only [FlatSettings.isUnknown, Bool.and_eq_true, Bool.not_eq_true',
      List.contains_eq_mem, decide_eq_false_iff_not] at hunknown
    have habsent : ∀ level, lastLeaf? (leavesAt data level) e.1 = none := fun level =>
      lastLeaf?_eq_none fun l hl hkey => hunknown.2 (hkey ▸ hleaves level l hl)
    have hget := get?_of_flattenSections h e.1
    rw [winning?, habsent, habsent, OrderedMap.get?, Option.or_none,
      List.lookup_eq_none_iff] at hget
    exact absurd (hget e he) (by simp)
  rw [FlatSettings.unknownKeys, hnone]
  exact List.mergeSort_nil

theorem isSection_of_mem_initialMapping : ∀ e ∈ initialMapping, isSection e = false :=
  fun _ => isSection_of_mem_entriesAt

theorem section?_initialMapping : section? initialMapping = none := by
  have hnone : initialMapping.find? isSection = none :=
    List.find?_eq_none.mpr fun e he => by rw [isSection_of_mem_initialMapping e he]; nofun
  rw [section?, hnone]
  rfl

/-- The leaves of the initial file are the settings, each within its namespace. -/
theorem mem_leavesAt_initialMapping_iff {level : Level} {l : Leaf} :
    l ∈ leavesAt initialMapping level ↔ level = .outer
      ∧ ∃ d ∈ settingsOf unchanged, ((withinNamespace d.1).path d.1, d.2) = l := by
  cases level with
  | inner =>
      rw [leavesAt, section?_initialMapping]
      refine ⟨fun h => absurd h List.not_mem_nil, ?_⟩
      rintro ⟨hlevel, _⟩
      cases hlevel
  | outer =>
      -- Beside the section there is everything, as there is no section.
      have hself : initialMapping.filter (fun e => !isSection e) = initialMapping :=
        List.filter_eq_self.mpr fun e he => by rw [isSection_of_mem_initialMapping e he]; rfl
      rw [leavesAt, hself, initialMapping, mem_leaves_entriesAt_iff]
      constructor
      · rintro ⟨d, hd, _, h⟩
        exact ⟨rfl, d, hd, h⟩
      · rintro ⟨_, d, hd, h⟩
        exact ⟨d, hd, rfl, h⟩

theorem of_mem_leavesAt_initialMapping {level : Level} {l : Leaf}
    (h : l ∈ leavesAt initialMapping level) :
    level = .outer ∧ l.key ∈ knownKeys ∧ l.1 = (withinNamespace l.key).path l.key := by
  rcases mem_leavesAt_initialMapping_iff.mp h with ⟨rfl, d, hd, rfl⟩
  have hkey : Leaf.key ((withinNamespace d.1).path d.1, d.2) = d.1 :=
    dottedKey_path (mem_knownKeys hd) (withinNamespace d.1)
  rw [hkey]
  exact ⟨rfl, mem_knownKeys hd, rfl⟩

/-- The initial file presents the context that no settings change, in any language and
    under any name. -/
theorem presents_initialMapping (typed : Bool) (name : String) :
    Presents withinNamespace { typed, name } initialMapping where
  unrepeated := unrepeated_entriesAt
  usable := by
    rintro ⟨v, hv, _⟩
    rw [section?_initialMapping] at hv
    exact absurd hv nofun
  written d hd := mem_leavesAt_initialMapping_iff.mpr ⟨rfl, d, hd, rfl⟩
  nothing_else level l hl _ := by
    rcases of_mem_leavesAt_initialMapping hl with ⟨rfl, _, hpath⟩
    exact ⟨rfl, hpath⟩

/-- No settings are neutral. -/
theorem neutral_empty : Neutral .empty where
  nothing_unknown := List.mergeSort_nil
  context _ _ := (Source.context_eq_ok_iff _).mpr ⟨fun _ => rfl, rfl, rfl, rfl, rfl⟩

/-- What the initial file holds is neutral. -/
theorem neutral_initialMapping : ∃ s, flattenSections initialMapping = .ok s ∧ Neutral s := by
  rcases flattenSections_cases initialMapping with ⟨_, s, hs, _⟩ | ⟨hunusable, _⟩
  · refine ⟨s, hs, unknownKeys_eq_nil hs fun level l hl => ?_, fun typed name => ?_⟩
    · exact (of_mem_leavesAt_initialMapping hl).2.1
    · -- What presents a context describes it, and the default width is a usable one.
      have hwidth : (1 : Int) ≤ 2 := by decide
      rw [← contextOf_of_flattenSections hs typed name]
      exact (contextOf_presented { typed, name } hwidth withinNamespace).2 _
        (presents_initialMapping typed name)
  · exact absurd hunusable (presents_initialMapping true "").usable

/-- A switch that is as it is by default is not highlighted. -/
theorem switchLine_default (key : String) (on : Bool) :
    switchLine key on on = plainLine key (switchWord on) :=
  if_pos rfl

/-- Neutral settings are listed with their defaults. The context they come to is known, and
    what a listing shows is read off the context. -/
theorem listing_of_neutral (h : Neutral s) (origin : String) :
    s.listing origin = ⟨plainLines origin, none⟩ := by
  -- Which context it is makes no difference, since a listing does not see the name.
  have hshows : (s.listing origin).error? = none ∧ _ := shows_of_context (h.context true "")
  have hplain : plainLines origin = headerLine origin
      :: (Feature.all.map fun f => switchLine f.key f.onByDefault f.onByDefault)
      ++ [switchLine insertSpacesKey true true, widthLine tabSizeKey 2 2] := by
    simp only [switchLine_default]
    rfl
  rw [hplain]
  rcases hlisting : s.listing origin with ⟨lines, error?⟩
  rw [hlisting] at hshows
  exact congrArg₂ Listing.mk hshows.2 hshows.1

example : defaults.length = 36 := rfl

end Neutrality

end Scaffold.Settings
