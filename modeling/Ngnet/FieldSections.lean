import Mathlib.Data.List.Induction
import Mathlib.Data.List.Nodup
import Mathlib.Tactic.Common

/-!
# Sections of fields

A section is a list of fields that is decoded in one pass. Some names are pseudo-names: their fields come first, each
at most once. The fields of some other names are set aside, and what is left is read one by one. `gather` is the pass,
which refuses a section at the first field that breaks a rule; `gather_eq_some_iff` says which sections it accepts, and
what it makes of them, without the pass.
-/

namespace Ngnet.FieldSections

variable {N V F : Type}

/-- How the fields of a section are told apart, and what becomes of one that is read. -/
structure Rules (N V F : Type) where
  isPseudo : N → Bool
  known : List N
  isAside : N → Bool
  read : N → V → Option F

/-- What a pass has gathered. -/
structure Gathered (N V F : Type) where
  pseudo : List (N × V) := []
  aside : List V := []
  regular : List F := []
  seen : Bool := false
  deriving DecidableEq, Repr

namespace Rules

variable (rules : Rules N V F)

/-! ## Sections in good order -/

def pseudoFields (fields : List (N × V)) : List (N × V) := fields.filter (rules.isPseudo ·.1)

/-- The values that are set aside. -/
def asides (fields : List (N × V)) : List V :=
  (fields.filter fun field => !rules.isPseudo field.1 && rules.isAside field.1).map (·.2)

/-- The fields that are read. -/
def others (fields : List (N × V)) : List (N × V) :=
  fields.filter fun field => !rules.isPseudo field.1 && !rules.isAside field.1

/-- Pseudo-fields come first; none is unknown, and none comes twice. -/
structure WellPlaced (fields : List (N × V)) : Prop where
  first : fields.Pairwise fun before behind => rules.isPseudo behind.1 = true → rules.isPseudo before.1 = true
  known : ∀ field ∈ fields, rules.isPseudo field.1 = true → field.1 ∈ rules.known
  once : ((rules.pseudoFields fields).map (·.1)).Nodup

/-- What a section is once its fields are told apart. -/
def sorted (fields : List (N × V)) : Gathered N V F where
  pseudo := rules.pseudoFields fields
  aside := rules.asides fields
  regular := (rules.others fields).filterMap fun field => rules.read field.1 field.2
  seen := fields.any (!rules.isPseudo ·.1)

theorem wellPlaced_nil : rules.WellPlaced [] := ⟨.nil, by simp, by simp [pseudoFields]⟩

theorem wellPlaced_concat {fields : List (N × V)} {field : N × V} :
    rules.WellPlaced (fields ++ [field]) ↔ rules.WellPlaced fields ∧ (rules.isPseudo field.1 = true →
      (rules.sorted fields).seen = false ∧ field.1 ∈ rules.known ∧ field.1 ∉ (rules.pseudoFields fields).map (·.1)) := by
  have hpseudo : rules.pseudoFields (fields ++ [field]) =
      rules.pseudoFields fields ++ if rules.isPseudo field.1 then [field] else [] := by
    simp [pseudoFields, List.filter_append, List.filter_cons]
  have hseen : (rules.sorted fields).seen = false ↔ ∀ other ∈ fields, rules.isPseudo other.1 = true := by
    simp [sorted]
  rw [hseen]
  constructor
  · rintro ⟨hfirst, hknown, honce⟩
    rw [hpseudo, List.map_append, List.nodup_append] at honce
    obtain ⟨hbefore, -, hbehind⟩ := List.pairwise_append.mp hfirst
    refine ⟨⟨hbefore, fun other hother => hknown other (List.mem_append_left _ hother), honce.1⟩, fun hfield => ?_⟩
    refine ⟨fun other hother => hbehind other hother field (by simp) hfield, hknown field (by simp) hfield, ?_⟩
    intro hmem
    exact honce.2.2 _ hmem field.1 (by simp [hfield]) rfl
  · rintro ⟨⟨hfirst, hknown, honce⟩, hfield⟩
    constructor
    · refine List.pairwise_append.mpr ⟨hfirst, by simp, fun other hother last hlast => ?_⟩
      obtain rfl := List.mem_singleton.mp hlast
      exact fun hlast => (hfield hlast).1 other hother
    · intro other hother hother'
      rcases List.mem_append.mp hother with hmem | hmem
      · exact hknown other hmem hother'
      · obtain rfl := List.mem_singleton.mp hmem
        exact (hfield hother').2.1
    · rw [hpseudo, List.map_append]
      split
      · rename_i hlast
        exact List.nodup_append.mpr ⟨honce, by simp, fun a ha b hb => by
          obtain rfl : b = field.1 := by simpa using hb
          exact fun heq => (hfield hlast).2.2 (heq ▸ ha)⟩
      · simpa using honce

end Rules

variable [DecidableEq N]

/-- The value of the first field of that name. -/
def valueOf (name : N) (fields : List (N × V)) : Option V := (fields.find? (·.1 = name)).map (·.2)

theorem valueOf_concat (name : N) (fields : List (N × V)) (field : N × V) :
    valueOf name (fields ++ [field]) = (valueOf name fields <|> if field.1 = name then some field.2 else none) := by
  simp only [valueOf, List.find?_append]
  cases fields.find? (·.1 = name) with
  | some found => simp
  | none => by_cases h : field.1 = name <;> simp [h]

theorem valueOf_eq_none_iff {name : N} {fields : List (N × V)} :
    valueOf name fields = none ↔ name ∉ fields.map (·.1) := by
  rw [valueOf, Option.map_eq_none_iff, List.find?_eq_none]
  simp only [List.mem_map, not_exists, not_and, decide_eq_true_eq]

theorem mem_of_valueOf {name : N} {fields : List (N × V)} {value : V} (h : valueOf name fields = some value) :
    (name, value) ∈ fields := by
  obtain ⟨field, hfind, rfl⟩ := Option.map_eq_some_iff.mp h
  have hname : field.1 = name := by simpa using List.find?_some hfind
  subst hname
  exact List.mem_of_find?_eq_some hfind

namespace Rules

variable (rules : Rules N V F)

/-! ## The pass -/

def take (gathered : Gathered N V F) (field : N × V) : Option (Gathered N V F) :=
  if rules.isPseudo field.1 then
    if gathered.seen = true ∨ field.1 ∉ rules.known ∨ field.1 ∈ gathered.pseudo.map (·.1) then none
    else some { gathered with pseudo := gathered.pseudo ++ [field] }
  else if rules.isAside field.1 then
    some { gathered with aside := gathered.aside ++ [field.2], seen := true }
  else
    (rules.read field.1 field.2).map fun f => { gathered with regular := gathered.regular ++ [f], seen := true }

def gather (fields : List (N × V)) : Option (Gathered N V F) := fields.foldlM rules.take {}

theorem gather_concat (fields : List (N × V)) (field : N × V) :
    rules.gather (fields ++ [field]) = (rules.gather fields).bind (rules.take · field) := by
  simp only [gather, List.foldlM_append, List.foldlM_cons, List.foldlM_nil, bind_pure]
  rfl

theorem take_sorted {fields : List (N × V)} {field : N × V} {gathered : Gathered N V F} :
    rules.take (rules.sorted fields) field = some gathered ↔
      ((rules.isPseudo field.1 = true → (rules.sorted fields).seen = false ∧ field.1 ∈ rules.known ∧
          field.1 ∉ (rules.pseudoFields fields).map (·.1)) ∧
        ∀ other ∈ rules.others [field], (rules.read other.1 other.2).isSome = true) ∧
      gathered = rules.sorted (fields ++ [field]) := by
  rw [take]
  by_cases hpseudo : rules.isPseudo field.1 = true
  · have hsorted : rules.sorted (fields ++ [field]) =
        { rules.sorted fields with pseudo := (rules.sorted fields).pseudo ++ [field] } := by
      simp [sorted, pseudoFields, asides, others, hpseudo]
    have hothers : rules.others [field] = [] := by simp [others, hpseudo]
    rw [if_pos hpseudo, hsorted, hothers]
    split
    · rename_i hbad
      simp only [reduceCtorEq, false_iff]
      rintro ⟨⟨hgood, -⟩, -⟩
      obtain ⟨hseen, hknown, hnew⟩ := hgood hpseudo
      rcases hbad with hbad | hbad | hbad
      · exact nomatch hseen.symm.trans hbad
      · exact hbad hknown
      · exact hnew hbad
    · rename_i hgood
      obtain ⟨hseen, hknown, hnew⟩ : (rules.sorted fields).seen = false ∧ field.1 ∈ rules.known ∧
          field.1 ∉ (rules.sorted fields).pseudo.map (·.1) := by simpa using hgood
      simp only [Option.some.injEq]
      exact ⟨fun h => ⟨⟨fun _ => ⟨hseen, hknown, hnew⟩, by simp⟩, h.symm⟩, fun h => h.2.symm⟩
  · rw [if_neg hpseudo]
    by_cases haside : rules.isAside field.1 = true
    · have hsorted : rules.sorted (fields ++ [field]) =
          { rules.sorted fields with aside := (rules.sorted fields).aside ++ [field.2], seen := true } := by
        simp [sorted, pseudoFields, asides, others, hpseudo, haside]
      have hothers : rules.others [field] = [] := by simp [others, haside]
      rw [if_pos haside, hsorted, hothers, Option.some.injEq]
      exact ⟨fun h => ⟨⟨fun hpseudo' => absurd hpseudo' hpseudo, by simp⟩, h.symm⟩, fun h => h.2.symm⟩
    · have hothers : rules.others [field] = [field] := by simp [others, hpseudo, haside]
      have hsorted (f : F) (hread : rules.read field.1 field.2 = some f) : rules.sorted (fields ++ [field]) =
          { rules.sorted fields with regular := (rules.sorted fields).regular ++ [f], seen := true } := by
        simp [sorted, pseudoFields, asides, others, hpseudo, haside, hread]
      rw [if_neg haside, hothers]
      cases hread : rules.read field.1 field.2 with
      | none => simp [hread]
      | some f =>
        rw [hsorted f hread, Option.map_some, Option.some.injEq]
        exact ⟨fun h => ⟨⟨fun hpseudo' => absurd hpseudo' hpseudo, by simp [hread]⟩, h.symm⟩, fun h => h.2.symm⟩

theorem gather_eq_some_iff {fields : List (N × V)} {gathered : Gathered N V F} :
    rules.gather fields = some gathered ↔
      (rules.WellPlaced fields ∧ ∀ field ∈ rules.others fields, (rules.read field.1 field.2).isSome = true) ∧
        gathered = rules.sorted fields := by
  induction fields using List.reverseRecOn generalizing gathered with
  | nil =>
    refine ⟨fun h => ⟨⟨rules.wellPlaced_nil, by simp [others]⟩, (Option.some.inj h).symm⟩, ?_⟩
    rintro ⟨-, rfl⟩
    rfl
  | append_singleton fields field ih =>
    have hothers : rules.others (fields ++ [field]) = rules.others fields ++ rules.others [field] :=
      List.filter_append ..
    rw [gather_concat, wellPlaced_concat, hothers, List.forall_mem_append, Option.bind_eq_some_iff]
    constructor
    · rintro ⟨before, hbefore, htake⟩
      obtain ⟨⟨hplaced, hread⟩, rfl⟩ := ih.mp hbefore
      obtain ⟨⟨hfield, hlast⟩, rfl⟩ := rules.take_sorted.mp htake
      exact ⟨⟨⟨hplaced, hfield⟩, hread, hlast⟩, rfl⟩
    · rintro ⟨⟨⟨hplaced, hfield⟩, hread, hlast⟩, rfl⟩
      exact ⟨rules.sorted fields, ih.mpr ⟨⟨hplaced, hread⟩, rfl⟩, rules.take_sorted.mpr ⟨⟨hfield, hlast⟩, rfl⟩⟩

/-! ## Values -/

theorem WellPlaced.valueOf_eq_some_iff {fields : List (N × V)} (h : rules.WellPlaced fields) {name : N} {value : V}
    (hname : rules.isPseudo name = true) :
    valueOf name (rules.pseudoFields fields) = some value ↔ (name, value) ∈ fields := by
  constructor
  · intro hvalue
    exact (List.mem_filter.mp (mem_of_valueOf hvalue)).1
  · intro hmem
    have hmem : (name, value) ∈ rules.pseudoFields fields := List.mem_filter.mpr ⟨hmem, hname⟩
    have honce := h.once
    generalize rules.pseudoFields fields = pseudo at hmem honce
    induction pseudo with
    | nil => simp at hmem
    | cons field pseudo ih =>
      simp only [List.map_cons, List.nodup_cons] at honce
      rcases List.mem_cons.mp hmem with rfl | hmem
      · simp [valueOf]
      · have hne : field.1 ≠ name := fun heq => honce.1 (heq ▸ List.mem_map_of_mem hmem)
        simpa [valueOf, hne] using ih hmem honce.2

end Rules

end Ngnet.FieldSections
