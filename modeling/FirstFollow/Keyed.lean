/-! Finite maps in the order in which their keys were first set. Setting a key again keeps its
place and replaces its value. -/

namespace FirstFollow

/-- Entries with distinct keys, oldest first. -/
structure Keyed (κ ν : Type) where
  entries : List (κ × ν)
  nodup : (entries.map Prod.fst).Nodup

namespace Keyed

variable {κ ν μ : Type}

instance [DecidableEq κ] [DecidableEq ν] : DecidableEq (Keyed κ ν) := fun a b =>
  decidable_of_iff (a.entries = b.entries) <| by
    cases a; cases b; simp

@[ext] protected theorem ext {a b : Keyed κ ν} (h : a.entries = b.entries) : a = b := by
  cases a; cases b; simp_all

instance : EmptyCollection (Keyed κ ν) := ⟨⟨[], .nil⟩⟩

instance : Inhabited (Keyed κ ν) := ⟨∅⟩

@[simp] theorem entries_empty : (∅ : Keyed κ ν).entries = [] := rfl

def keys (a : Keyed κ ν) : List κ := a.entries.map Prod.fst

def size (a : Keyed κ ν) : Nat := a.entries.length

@[simp] theorem keys_empty : (∅ : Keyed κ ν).keys = [] := rfl

theorem keys_nodup (a : Keyed κ ν) : a.keys.Nodup := a.nodup

@[simp] theorem length_keys (a : Keyed κ ν) : a.keys.length = a.size := List.length_map _

instance : Membership κ (Keyed κ ν) := ⟨fun a k => k ∈ a.keys⟩

theorem mem_def {a : Keyed κ ν} {k : κ} : k ∈ a ↔ k ∈ a.keys := Iff.rfl

/-- The values changed, the keys kept. -/
def map (f : κ → ν → μ) (a : Keyed κ ν) : Keyed κ μ :=
  ⟨a.entries.map fun e => (e.1, f e.1 e.2), by
    rw [List.map_map]; exact a.nodup⟩

@[simp] theorem keys_map (f : κ → ν → μ) (a : Keyed κ ν) : (a.map f).keys = a.keys :=
  List.map_map

section

variable [DecidableEq κ]

/-- The value beside the first `k`. -/
def find? (k : κ) : List (κ × ν) → Option ν
  | [] => none
  | (k', v) :: rest => if k' = k then some v else find? k rest

def replace (k : κ) (v : ν) : List (κ × ν) → List (κ × ν)
  | [] => [(k, v)]
  | (k', v') :: rest => if k' = k then (k, v) :: rest else (k', v') :: replace k v rest

theorem keys_replace (k : κ) (v : ν) (es : List (κ × ν)) :
    (replace k v es).map Prod.fst =
      if k ∈ es.map Prod.fst then es.map Prod.fst else es.map Prod.fst ++ [k] := by
  induction es with
  | nil => simp [replace]
  | cons e rest ih =>
    rw [replace]
    by_cases h : e.1 = k
    · simp [h]
    · have h' : ¬ k = e.1 := fun hk => h hk.symm
      simp only [h, if_false, List.map_cons, ih, List.mem_cons, h', false_or]
      split <;> simp

theorem find?_replace (k k' : κ) (v : ν) (es : List (κ × ν)) :
    find? k' (replace k v es) = if k' = k then some v else find? k' es := by
  induction es with
  | nil => simp [replace, find?, eq_comm]
  | cons e rest ih => grind [replace, find?]

theorem find?_isSome_iff {k : κ} {es : List (κ × ν)} :
    (find? k es).isSome ↔ k ∈ es.map Prod.fst := by
  induction es with
  | nil => simp [find?]
  | cons e rest ih =>
    by_cases h : e.1 = k
    · simp [find?, h]
    · have : ¬ k = e.1 := fun hk => h hk.symm
      simp only [find?, h, if_false, ih, List.map_cons, List.mem_cons, this, false_or]

def get? (a : Keyed κ ν) (k : κ) : Option ν := find? k a.entries

def set (a : Keyed κ ν) (k : κ) (v : ν) : Keyed κ ν :=
  ⟨replace k v a.entries, by
    rw [keys_replace]
    split
    next => exact a.nodup
    next h => exact List.nodup_append.2 ⟨a.nodup, by simp, by
      intro x hx y hy
      rw [List.mem_singleton.1 hy]
      rintro rfl
      exact h hx⟩⟩

def erase (a : Keyed κ ν) (k : κ) : Keyed κ ν :=
  ⟨a.entries.filter (·.1 ≠ k), a.nodup.sublist (List.filter_sublist.map _)⟩

/-- A key met again keeps its first place and takes its last value. -/
def ofList (es : List (κ × ν)) : Keyed κ ν := es.foldl (fun a e => a.set e.1 e.2) ∅

instance (k : κ) (a : Keyed κ ν) : Decidable (k ∈ a) := inferInstanceAs (Decidable (k ∈ a.keys))

@[simp] theorem get?_empty (k : κ) : (∅ : Keyed κ ν).get? k = none := rfl

theorem get?_isSome_iff {a : Keyed κ ν} {k : κ} : (a.get? k).isSome ↔ k ∈ a := find?_isSome_iff

theorem get?_eq_none_iff {a : Keyed κ ν} {k : κ} : a.get? k = none ↔ k ∉ a := by
  rw [← get?_isSome_iff]; cases a.get? k <;> simp

theorem get?_set (a : Keyed κ ν) (k k' : κ) (v : ν) :
    (a.set k v).get? k' = if k' = k then some v else a.get? k' :=
  find?_replace k k' v a.entries

theorem keys_set (a : Keyed κ ν) (k : κ) (v : ν) :
    (a.set k v).keys = if k ∈ a then a.keys else a.keys ++ [k] :=
  keys_replace k v a.entries

/-- Setting a key to the value that it has changes nothing. -/
theorem set_of_get? {a : Keyed κ ν} {k : κ} {v : ν} (h : a.get? k = some v) : a.set k v = a := by
  have hreplace : ∀ es : List (κ × ν), find? k es = some v → replace k v es = es := by
    intro es
    induction es with
    | nil => simp [find?]
    | cons e rest ih =>
      intro hfind
      by_cases he : e.1 = k
      · have hv : e.2 = v := by simpa [find?, he] using hfind
        rw [replace, if_pos he, ← he, ← hv]
      · rw [replace, if_neg he, ih (by simpa [find?, he] using hfind)]
  exact Keyed.ext (hreplace a.entries h)

@[simp] theorem keys_erase (a : Keyed κ ν) (k : κ) : (a.erase k).keys = a.keys.filter (· ≠ k) := by
  simp [keys, erase, List.filter_map, Function.comp_def]

theorem get?_erase (a : Keyed κ ν) (k k' : κ) :
    (a.erase k).get? k' = if k' = k then none else a.get? k' := by
  show find? k' (a.entries.filter (·.1 ≠ k)) = _
  rw [get?]
  induction a.entries with
  | nil => simp [find?]
  | cons e rest ih => grind [find?]

theorem entries_foldl_set {es : List (κ × ν)} {a : Keyed κ ν}
    (h : (a.entries ++ es).map Prod.fst |>.Nodup) :
    (es.foldl (fun a e => a.set e.1 e.2) a).entries = a.entries ++ es := by
  induction es generalizing a with
  | nil => simp
  | cons e es ih =>
    have happend : ∀ l : List (κ × ν), e.1 ∉ l.map Prod.fst → replace e.1 e.2 l = l ++ [e] := by
      intro l hl
      induction l with
      | nil => rfl
      | cons x l ihl =>
        simp only [List.map_cons, List.mem_cons, not_or] at hl
        rw [replace, if_neg (Ne.symm hl.1), ihl hl.2]
        rfl
    have hnot : e.1 ∉ a.entries.map Prod.fst := by
      rw [List.map_append, List.map_cons] at h
      exact fun hmem => (List.nodup_append.1 h).2.2 _ hmem _ (by simp) rfl
    have hset : (a.set e.1 e.2).entries = a.entries ++ [e] := happend a.entries hnot
    rw [List.foldl_cons, ih (by simpa [hset] using h), hset, List.append_assoc]
    rfl

theorem entries_ofList {es : List (κ × ν)} (h : (es.map Prod.fst).Nodup) :
    (ofList es).entries = es := by
  rw [ofList, entries_foldl_set (by simpa using h)]
  rfl

theorem ofList_entries (a : Keyed κ ν) : ofList a.entries = a :=
  Keyed.ext (entries_ofList a.nodup)

theorem keys_ofList {es : List (κ × ν)} (h : (es.map Prod.fst).Nodup) :
    (ofList es).keys = es.map Prod.fst := by
  rw [keys, entries_ofList h]

/-- The same value at every key, in whatever order the keys stand. -/
def Same (a b : Keyed κ ν) : Prop := a.size = b.size ∧ ∀ e ∈ a.entries, b.get? e.1 = some e.2

instance [DecidableEq ν] (a b : Keyed κ ν) : Decidable (a.Same b) :=
  inferInstanceAs (Decidable (_ ∧ _))

end

end Keyed

end FirstFollow
