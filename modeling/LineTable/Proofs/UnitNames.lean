/-
Units by their names.

The search through the units compares texts: a path qualifies if it ends in a slash and then
in the name.  What it finds is best said of the parts between the slashes.  A text that ends
so has the parts of the name behind others of its own (`endsInName_iff`), and one without
other parts is the name itself.  So a name finds the paths that end in its parts, and first
of all the path that has no others (`UnitIndex.named?_components`).
-/
import LineTable.UnitIndex

namespace LineTable

/-- The unit has this name: the first of its names is the text. -/
def CompileUnit.IsNamed (u : CompileUnit) (path : String) : Prop :=
  ∃ front behind, u.attributes = front ++ ⟨.name, .text path⟩ :: behind ∧
    ∀ other ∈ front, other.name ≠ .name

namespace CompileUnit

variable {u : CompileUnit} {path : String}

theorem isNamed_iff : u.IsNamed path ↔ u.name? = some path := by
  rw [IsNamed, name?, value?]
  simp only [Option.bind_eq_some_iff, Option.map_eq_some_iff, List.find?_eq_some_iff_append,
    decide_eq_true_eq, Bool.not_eq_true', decide_eq_false_iff_not]
  constructor
  · rintro ⟨front, behind, hsplit, hfront⟩
    exact ⟨.text path, ⟨⟨.name, .text path⟩, ⟨rfl, front, behind, hsplit, hfront⟩, rfl⟩, rfl⟩
  · rintro ⟨_, ⟨⟨_, value⟩, ⟨rfl, front, behind, hsplit, hfront⟩, rfl⟩, htext⟩
    cases value with
    | text =>
      cases htext
      exact ⟨front, behind, hsplit, hfront⟩
    | _ => contradiction

end CompileUnit

/-! ## Components -/

/-- The parts of a path between its slashes. -/
def components (path : String) : List (List Char) := path.toList.splitOn '/'

/-- The path has the components of the name behind others. -/
def EndsIn (path name : String) : Prop :=
  ∃ front, front ≠ [] ∧ components path = front ++ components name

section

variable {path name : String}

theorem intercalate_components (path : String) :
    ['/'].intercalate (components path) = path.toList :=
  List.intercalate_splitOn '/'

theorem components_inj : components path = components name ↔ path = name := by
  refine ⟨fun h => String.toList_inj.1 ?_, congrArg components⟩
  rw [← intercalate_components path, ← intercalate_components name, h]

theorem intercalate_append {sep : Char} {front behind : List (List Char)} (hfront : front ≠ [])
    (hbehind : behind ≠ []) :
    [sep].intercalate (front ++ behind) =
      [sep].intercalate front ++ sep :: [sep].intercalate behind := by
  induction front with
  | nil => contradiction
  | cons first rest ih =>
    cases rest with
    | nil =>
      rw [List.singleton_append, List.intercalate_cons_of_ne_nil hbehind,
        List.intercalate_singleton, List.append_assoc, List.singleton_append]
    | cons second rest =>
      have hrest : second :: rest ≠ [] := List.cons_ne_nil _ _
      rw [List.cons_append, List.intercalate_cons_of_ne_nil (by simp), ih hrest,
        List.intercalate_cons_of_ne_nil hrest, List.append_assoc, List.append_assoc,
        List.append_assoc]

/-- A path ends in a slash and a name exactly when it has components before those of the
name. -/
theorem endsInName_iff : UnitIndex.endsInName path name ↔ EndsIn path name := by
  rw [UnitIndex.endsInName, List.isSuffixOf_iff_suffix]
  constructor
  · rintro ⟨before, hpath⟩
    refine ⟨before.splitOn '/', List.splitOn_ne_nil _ _, ?_⟩
    rw [components, ← hpath, List.splitOn_append_cons_self]
    rfl
  · rintro ⟨front, hfront, hpath⟩
    refine ⟨['/'].intercalate front, ?_⟩
    have hname : components name ≠ [] := List.splitOn_ne_nil _ _
    rw [← intercalate_components path, hpath, intercalate_append hfront hname,
      intercalate_components name]

theorem components_suffix_iff :
    components name <:+ components path ↔ path = name ∨ EndsIn path name := by
  constructor
  · rintro ⟨front, hpath⟩
    cases front with
    | nil => exact .inl (components_inj.1 hpath.symm)
    | cons first rest => exact .inr ⟨first :: rest, List.cons_ne_nil _ _, hpath.symm⟩
  · rintro (rfl | ⟨front, -, hpath⟩)
    · exact List.suffix_refl _
    · exact ⟨front, hpath.symm⟩

end

/-! ## The search -/

/-- The first of the units with a property. -/
def FirstWith (P : CompileUnit → Prop) (units : List CompileUnit) (u : CompileUnit) : Prop :=
  ∃ front behind, units = front ++ u :: behind ∧ P u ∧ ∀ v ∈ front, ¬ P v

namespace UnitIndex

variable {index : UnitIndex} {name : String} {u : CompileUnit}

theorem find?_eq_some_iff_firstWith {units : List CompileUnit} {P : CompileUnit → Prop}
    {p : CompileUnit → Bool} (hp : ∀ v, p v ↔ P v) :
    units.find? p = some u ↔ FirstWith P units u := by
  simp only [List.find?_eq_some_iff_append, FirstWith, hp, Bool.not_eq_true', ← Bool.not_eq_true]
  constructor
  · rintro ⟨hu, front, behind, hsplit, hfront⟩
    exact ⟨front, behind, hsplit, hu, hfront⟩
  · rintro ⟨front, behind, hsplit, hu, hfront⟩
    exact ⟨hu, front, behind, hsplit, hfront⟩

theorem find?_eq_none_iff_forall {units : List CompileUnit} {P : CompileUnit → Prop}
    {p : CompileUnit → Bool} (hp : ∀ v, p v ↔ P v) :
    units.find? p = none ↔ ∀ v ∈ units, ¬ P v := by
  simp only [List.find?_eq_none, hp]

/-- The unit's path has components before those of a name. -/
def HasPathIn (name : String) (u : CompileUnit) : Prop := ∃ path, u.IsNamed path ∧ EndsIn path name

theorem name_eq_iff (v : CompileUnit) : decide (v.name? = some name) = true ↔ v.IsNamed name := by
  rw [decide_eq_true_eq, CompileUnit.isNamed_iff]

theorem name_any_iff (v : CompileUnit) :
    v.name?.any (endsInName · name) = true ↔ HasPathIn name v := by
  simp only [HasPathIn, CompileUnit.isNamed_iff, ← endsInName_iff, Option.any_eq_true]

theorem named?_eq_some_iff :
    index.named? name = some u ↔
      FirstWith (·.IsNamed name) index.units u ∨
        (∀ v ∈ index.units, ¬ v.IsNamed name) ∧ FirstWith (HasPathIn name) index.units u := by
  rw [named?, Option.or_eq_some_iff, find?_eq_some_iff_firstWith name_eq_iff,
    find?_eq_none_iff_forall name_eq_iff, find?_eq_some_iff_firstWith name_any_iff]

theorem suffix_iff :
    (∃ path, u.IsNamed path ∧ components name <:+ components path) ↔
      u.IsNamed name ∨ HasPathIn name u := by
  simp only [components_suffix_iff, HasPathIn]
  constructor
  · rintro ⟨path, hpath, rfl | hends⟩
    · exact .inl hpath
    · exact .inr ⟨path, hpath, hends⟩
  · rintro (hname | ⟨path, hpath, hends⟩)
    · exact ⟨name, hname, .inl rfl⟩
    · exact ⟨path, hpath, .inr hends⟩

theorem named?_eq_none_iff :
    index.named? name = none ↔
      ∀ u ∈ index.units, ¬ ∃ path, u.IsNamed path ∧ components name <:+ components path := by
  rw [named?, Option.or_eq_none_iff, find?_eq_none_iff_forall name_eq_iff,
    find?_eq_none_iff_forall name_any_iff]
  simp only [suffix_iff, not_or, forall_and]

theorem suffix_of_named? (h : index.named? name = some u) :
    ∃ path, u.IsNamed path ∧ components name <:+ components path := by
  rw [suffix_iff]
  obtain ⟨_, _, -, hu, -⟩ | ⟨-, _, _, -, hu, -⟩ := named?_eq_some_iff.1 h
  · exact .inl hu
  · exact .inr hu

/-- Of units with names of their own, each is the only one of its name. -/
theorem firstWith_of_distinct {units : List CompileUnit}
    (hdistinct : units.Pairwise fun u v => ∀ path, u.IsNamed path → ¬ v.IsNamed path)
    (hu : u ∈ units) (hname : u.IsNamed name) : FirstWith (·.IsNamed name) units u := by
  obtain ⟨front, behind, rfl⟩ := List.append_of_mem hu
  refine ⟨front, behind, rfl, hname, fun v hv hsame => ?_⟩
  exact (List.pairwise_append.1 hdistinct).2.2 v hv u List.mem_cons_self name hsame hname

/-- A name finds a unit exactly when the components of some unit's path end in those of the
name.  It finds the first unit of exactly this name, wherever that stands, or else the first
one whose path has components before those of the name.  So units of distinct names are found
by their names. -/
theorem named?_components (index : UnitIndex) (name : String) :
    (index.named? name = none ↔
      ∀ u ∈ index.units, ¬ ∃ path, u.IsNamed path ∧ components name <:+ components path) ∧
    (∀ u, index.named? name = some u →
      ∃ path, u.IsNamed path ∧ components name <:+ components path) ∧
    (∀ u, index.named? name = some u ↔
      FirstWith (·.IsNamed name) index.units u ∨
        (∀ v ∈ index.units, ¬ v.IsNamed name) ∧
          FirstWith (fun v => ∃ path, v.IsNamed path ∧ EndsIn path name) index.units u) ∧
    ((index.units.Pairwise fun u v => ∀ path, u.IsNamed path → ¬ v.IsNamed path) →
      ∀ u ∈ index.units, u.IsNamed name → index.named? name = some u) := by
  refine ⟨named?_eq_none_iff, fun u => suffix_of_named?, fun u => named?_eq_some_iff, ?_⟩
  intro hdistinct u hu hname
  exact named?_eq_some_iff.2 (.inl (firstWith_of_distinct hdistinct hu hname))

/-- A compile unit with a name. -/
def namedUnit (offset : UInt64) (path : String) : CompileUnit :=
  ⟨offset, .compileUnit, [⟨.name, .text path⟩]⟩

/-- Three units, of which two have paths that end in the name of the third. -/
def namedUnits : UnitIndex :=
  ofUnits [namedUnit 0 "/src/a.c", namedUnit 8 "a.c", namedUnit 16 "lib/src/a.c"]

theorem isNamed_namedUnit {offset : UInt64} {path path' : String} :
    (namedUnit offset path).IsNamed path' ↔ path = path' := by
  rw [CompileUnit.isNamed_iff]
  exact Option.some_inj

/-- The exact name goes before the paths, and parts of a component find nothing. -/
theorem named?_components_sample :
    (namedUnits.units.Pairwise fun u v => ∀ path, u.IsNamed path → ¬ v.IsNamed path) ∧
      namedUnits.named? "a.c" = some (namedUnit 8 "a.c") ∧
      namedUnits.named? "src/a.c" = some (namedUnit 0 "/src/a.c") ∧
      namedUnits.named? "rc/a.c" = none := by
  have hdistinct : namedUnits.units.Pairwise fun u v =>
      ∀ path, u.IsNamed path → ¬ v.IsNamed path := by
    simp [namedUnits, ofUnits, isNamed_namedUnit]
  refine ⟨hdistinct, ?_, ?_, ?_⟩
  · refine (named?_components namedUnits "a.c").2.2.2 hdistinct _ ?_ (isNamed_namedUnit.2 rfl)
    simp [namedUnits, ofUnits]
  · refine ((named?_components namedUnits "src/a.c").2.2.1 _).2 (.inr ⟨?_, [], _, rfl, ?_, nofun⟩)
    · simp [namedUnits, ofUnits, isNamed_namedUnit]
    · exact ⟨"/src/a.c", isNamed_namedUnit.2 rfl, [[]], by decide, by decide⟩
  · rw [(named?_components namedUnits "rc/a.c").1]
    simp only [namedUnits, ofUnits, List.forall_mem_cons, isNamed_namedUnit, exists_eq_left']
    exact ⟨by decide, by decide, by decide, nofun⟩

end UnitIndex
end LineTable
