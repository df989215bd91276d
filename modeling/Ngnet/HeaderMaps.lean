import Mathlib.Data.List.Induction
import Mathlib.Data.List.Nodup
import Ngnet.Http3Heads

/-!
# Header maps

What the header map that fields are appended to holds, and which maps the appended fields give back.
-/

namespace Ngnet.HeaderMaps
open QmuxVarints Http3Heads

/-- The map of fields that are appended one after another. -/
def ofFields (fields : List Field) : HeaderMap :=
  fields.foldl (fun headers field => headers.append field.1 field.2) []

theorem ofFields_concat (fields : List Field) (field : Field) :
    ofFields (fields ++ [field]) = (ofFields fields).append field.1 field.2 := by
  simp [ofFields]

/-- `HeaderMap::get_all`. -/
def getAll (headers : HeaderMap) (name : Bytes) : List Bytes := ((headers.find? (·.1 = name)).map (·.2)).getD []

theorem getAll_append (headers : HeaderMap) (name value other : Bytes) :
    getAll (headers.append name value) other =
      if other = name then getAll headers other ++ [value] else getAll headers other := by
  induction headers with
  | nil =>
    by_cases h : other = name
    · simp [getAll, HeaderMap.append, h]
    · simp [getAll, HeaderMap.append, h, Ne.symm h]
  | cons entry headers ih =>
    simp only [HeaderMap.append]
    by_cases hentry : entry.1 = name
    · rw [if_pos hentry]
      by_cases h : other = name
      · simp [getAll, h, hentry]
      · simp [getAll, h, hentry, Ne.symm h]
    · rw [if_neg hentry]
      by_cases h : entry.1 = other
      · have hne : other ≠ name := fun heq => hentry (h.trans heq)
        simp [getAll, h, hne]
      · simpa [getAll, h] using ih

theorem getAll_ofFields (fields : List Field) (name : Bytes) :
    getAll (ofFields fields) name = (fields.filter (·.1 = name)).map (·.2) := by
  induction fields using List.reverseRecOn with
  | nil => rfl
  | append_singleton fields field ih =>
    rw [ofFields_concat, getAll_append, ih]
    by_cases h : field.1 = name
    · simp [h]
    · simp [h, Ne.symm h]

/-! ## Maps of their own fields -/

/-- A name has one entry, and an entry has values. -/
structure WellFormed (headers : HeaderMap) : Prop where
  names : (headers.map (·.1)).Nodup
  values : ∀ entry ∈ headers, entry.2 ≠ []

variable {headers : HeaderMap} {name : Bytes}

theorem append_of_new (h : name ∉ headers.map (·.1)) (value : Bytes) :
    headers.append name value = headers ++ [(name, [value])] := by
  induction headers with
  | nil => rfl
  | cons entry headers ih =>
    simp only [List.map_cons, List.mem_cons, not_or] at h
    simp [HeaderMap.append, Ne.symm h.1, ih h.2]

theorem append_of_last (h : name ∉ headers.map (·.1)) (values : List Bytes)
    (value : Bytes) : HeaderMap.append (headers ++ [(name, values)]) name value = headers ++ [(name, values ++ [value])] := by
  induction headers with
  | nil => simp [HeaderMap.append]
  | cons entry headers ih =>
    simp only [List.map_cons, List.mem_cons, not_or] at h
    simp [HeaderMap.append, Ne.symm h.1, ih h.2]

theorem foldl_append_last (h : name ∉ headers.map (·.1))
    (values more : List Bytes) : (more.map (name, ·)).foldl (fun headers field => HeaderMap.append headers field.1 field.2)
      (headers ++ [(name, values)]) = headers ++ [(name, values ++ more)] := by
  induction more generalizing values with
  | nil => simp
  | cons value more ih => simp [append_of_last h, ih]

theorem foldl_append_iter {more : HeaderMap} (h : WellFormed (headers ++ more)) :
    (HeaderMap.iter more).foldl (fun headers field => HeaderMap.append headers field.1 field.2) headers =
      headers ++ more := by
  induction more generalizing headers with
  | nil => simp [HeaderMap.iter]
  | cons entry more ih =>
    have hnew : entry.1 ∉ headers.map (·.1) := by
      have hnames := h.names
      rw [List.map_append, List.map_cons, List.nodup_append] at hnames
      exact fun hmem => hnames.2.2 _ hmem entry.1 (by simp) rfl
    obtain ⟨value, values, hvalues⟩ := List.exists_cons_of_ne_nil (h.values entry (by simp))
    have hentry : (entry.2.map (entry.1, ·)).foldl (fun headers field => HeaderMap.append headers field.1 field.2)
        headers = headers ++ [entry] := by
      rw [hvalues, List.map_cons, List.foldl_cons, append_of_new hnew, foldl_append_last hnew]
      simp [← hvalues]
    have hmore : WellFormed ((headers ++ [entry]) ++ more) := by simpa using h
    have hrest := ih hmore
    simp only [HeaderMap.iter, List.flatMap_cons, List.foldl_append] at hrest ⊢
    rw [hentry, hrest]
    simp

theorem ofFields_iter (h : WellFormed headers) : ofFields headers.iter = headers :=
  foldl_append_iter h

/-! ## A name left out -/

def without (name : Bytes) (headers : HeaderMap) : HeaderMap := headers.filter (·.1 ≠ name)

theorem iter_without (name : Bytes) (headers : HeaderMap) :
    (without name headers).iter = headers.iter.filter (·.1 ≠ name) := by
  induction headers with
  | nil => rfl
  | cons entry headers ih =>
    have hfields : (entry.2.map (entry.1, ·)).filter (fun field : Field => decide (field.1 ≠ name)) =
        if entry.1 = name then [] else entry.2.map (entry.1, ·) := by
      split
      · rename_i h
        simp [List.filter_map, Function.comp_def, h]
      · rename_i h
        simp [List.filter_map, Function.comp_def, h]
    simp only [HeaderMap.iter, List.flatMap_cons, List.filter_append, hfields] at ih ⊢
    rw [← ih]
    by_cases h : entry.1 = name
    · simp [without, h]
    · simp [without, h]

theorem wellFormed_without (h : WellFormed headers) (name : Bytes) :
    WellFormed (without name headers) := by
  constructor
  · exact h.names.sublist (List.filter_sublist.map _)
  · intro entry hentry
    exact h.values entry (List.mem_of_mem_filter hentry)

end Ngnet.HeaderMaps
