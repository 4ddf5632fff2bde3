/-!
# Ordered dictionaries and sets of names

A dictionary lists its entries in strictly increasing order of their names, and a set of names
lists its members the same way. The order is part of the type, so equal contents are equal
values, and whatever is written from one of them is written in the order of the names.
-/

namespace KeyedMarkup

/-- Values by name, listed in strictly increasing order of the names. -/
@[ext]
structure Dict (α : Type) where
  entries : List (String × α)
  sorted : entries.Pairwise (fun a b => a.1 < b.1)
deriving DecidableEq

namespace Dict

variable {α β : Type}

private def put (name : String) (value : α) : List (String × α) → List (String × α)
  | [] => [(name, value)]
  | (n, v) :: rest =>
      if name < n then (name, value) :: (n, v) :: rest
      else if name = n then (name, value) :: rest
      else (n, v) :: put name value rest

private theorem mem_put {name : String} {value : α} {es : List (String × α)} {e : String × α}
    (h : e ∈ put name value es) : e = (name, value) ∨ e ∈ es := by
  induction es with
  | nil => simpa [put] using h
  | cons d rest ih =>
      simp only [put] at h
      split at h
      · simpa using h
      · split at h
        · rcases List.mem_cons.mp h with h | h
          · exact .inl h
          · exact .inr (List.mem_cons_of_mem _ h)
        · rcases List.mem_cons.mp h with h | h
          · exact .inr (h ▸ List.mem_cons_self)
          · exact (ih h).imp_right (List.mem_cons_of_mem _)

private theorem put_of_lt {name : String} {value : α} {es : List (String × α)}
    (h : ∀ e ∈ es, e.1 < name) : put name value es = es ++ [(name, value)] := by
  induction es with
  | nil => rfl
  | cons d rest ih =>
      rw [List.forall_mem_cons] at h
      obtain ⟨hd, hrest⟩ := h
      have hnlt : ¬name < d.1 := fun hlt => String.lt_irrefl _ (String.lt_trans hd hlt)
      have hne : ¬name = d.1 := fun heq => String.lt_irrefl _ (heq ▸ hd)
      rw [put, if_neg hnlt, if_neg hne, ih hrest, List.cons_append]

private theorem sorted_put (name : String) (value : α) (es : List (String × α))
    (h : es.Pairwise (fun a b => a.1 < b.1)) :
    (put name value es).Pairwise (fun a b => a.1 < b.1) := by
  induction es with
  | nil => simp [put]
  | cons d rest ih =>
      obtain ⟨hd, hr⟩ := List.pairwise_cons.mp h
      simp only [put]
      split
      next hlt =>
        refine List.pairwise_cons.mpr ⟨fun e he => ?_, h⟩
        rcases List.mem_cons.mp he with rfl | he
        · exact hlt
        · exact String.lt_trans hlt (hd e he)
      next hnlt =>
        split
        next heq => exact List.pairwise_cons.mpr ⟨fun e he => heq ▸ hd e he, hr⟩
        next hne =>
          refine List.pairwise_cons.mpr ⟨fun e he => ?_, ih hr⟩
          rcases mem_put he with rfl | he
          · exact String.not_le.mp fun hle =>
              hne (String.le_antisymm hle (String.not_lt.mp hnlt))
          · exact hd e he

def empty : Dict α := ⟨[], .nil⟩

instance : Inhabited (Dict α) := ⟨empty⟩

/-- Sets the value of a name, replacing an earlier one. -/
def insert (d : Dict α) (name : String) (value : α) : Dict α :=
  ⟨put name value d.entries, sorted_put name value d.entries d.sorted⟩

def get? (d : Dict α) (name : String) : Option α := d.entries.lookup name

def contains (d : Dict α) (name : String) : Bool := (d.get? name).isSome

def isEmpty (d : Dict α) : Bool := d.entries.isEmpty

def names (d : Dict α) : List String := d.entries.map (·.1)

/-- Keeps the entries that pass a test. -/
def filter (keep : String → α → Bool) (d : Dict α) : Dict α :=
  ⟨d.entries.filter fun e => keep e.1 e.2, d.sorted.filter _⟩

/-- Replaces every value, keeping the names. -/
def mapValues (f : String → α → β) (d : Dict α) : Dict β :=
  ⟨d.entries.map fun e => (e.1, f e.1 e.2), by
    rw [List.pairwise_map]
    exact d.sorted⟩

private theorem lookup_cons (n : String) (e : String × α) (es : List (String × α)) :
    (e :: es).lookup n = if n = e.1 then some e.2 else es.lookup n := by
  rw [List.lookup_cons]
  by_cases h : n = e.1
  · simp [h]
  · simp [h, beq_false_of_ne h]

private theorem lookup_put (name n : String) (value : α) (es : List (String × α)) :
    (put name value es).lookup n = if n = name then some value else es.lookup n := by
  induction es with
  | nil => simp [put, lookup_cons]
  | cons d rest ih =>
      simp only [put]
      split
      · rw [lookup_cons]
      · split
        next heq => by_cases h : n = name <;> simp [lookup_cons, ← heq, h]
        next hne =>
          by_cases h : n = name
          · subst h
            simp [lookup_cons, ih, hne]
          · simp [lookup_cons, ih, h]

private theorem mem_of_lookup {name : String} {value : α} {es : List (String × α)}
    (h : es.lookup name = some value) : (name, value) ∈ es := by
  induction es with
  | nil => simp at h
  | cons e rest ih =>
      rw [lookup_cons] at h
      split at h
      next he => simp [he, ← Option.some.inj h]
      next => exact List.mem_cons_of_mem _ (ih h)

private theorem put_cons_self (name : String) (value value' : α) (es : List (String × α)) :
    put name value' ((name, value) :: es) = (name, value') :: es := by
  rw [put, if_neg (String.lt_irrefl name), if_pos rfl]

private theorem put_put (name : String) (value value' : α) (es : List (String × α)) :
    put name value' (put name value es) = put name value' es := by
  induction es with
  | nil => exact put_cons_self name value value' []
  | cons d rest ih =>
      simp only [put]
      split
      next hlt => exact put_cons_self name value value' _
      next hnlt =>
        split
        next heq => exact put_cons_self name value value' rest
        next hne => rw [put, if_neg hnlt, if_neg hne, ih]

/-- Of two values that are set for a name the later one stays. -/
theorem insert_insert (d : Dict α) (name : String) (value value' : α) :
    (d.insert name value).insert name value' = d.insert name value' :=
  Dict.ext (put_put name value value' d.entries)

theorem get?_insert (d : Dict α) (name n : String) (value : α) :
    (d.insert name value).get? n = if n = name then some value else d.get? n :=
  lookup_put name n value d.entries

theorem mem_entries_of_get? {d : Dict α} {name : String} {value : α}
    (h : d.get? name = some value) : (name, value) ∈ d.entries :=
  mem_of_lookup h

@[simp] theorem mem_filter {keep : String → α → Bool} {d : Dict α} {name : String} {value : α} :
    (name, value) ∈ (d.filter keep).entries ↔
      (name, value) ∈ d.entries ∧ keep name value = true := by
  simp [filter]

@[simp] theorem mem_mapValues {f : String → α → β} {d : Dict α} {name : String} {value : β} :
    (name, value) ∈ (d.mapValues f).entries ↔
      ∃ v, (name, v) ∈ d.entries ∧ f name v = value := by
  simp only [mapValues, List.mem_map, Prod.mk.injEq]
  exact ⟨fun ⟨e, he, hn, hv⟩ => ⟨e.2, hn ▸ he, hn ▸ hv⟩, fun ⟨v, hv, h⟩ => ⟨_, hv, rfl, h⟩⟩

/-- Inserts the entries of a list in order, so the last value given for a name stays. -/
def insertAll (d : Dict α) (es : List (String × α)) : Dict α :=
  es.foldl (fun d e => d.insert e.1 e.2) d

def ofList (es : List (String × α)) : Dict α := empty.insertAll es

theorem mem_insertAll {d : Dict α} {es : List (String × α)} {e : String × α}
    (h : e ∈ (d.insertAll es).entries) : e ∈ es ∨ e ∈ d.entries := by
  induction es generalizing d with
  | nil => exact .inr h
  | cons e' rest ih =>
      rcases ih h with hrest | hinsert
      · exact .inl (List.mem_cons_of_mem _ hrest)
      · rcases mem_put hinsert with rfl | hd
        · exact .inl List.mem_cons_self
        · exact .inr hd

theorem mem_ofList {es : List (String × α)} {e : String × α} (h : e ∈ (ofList es).entries) :
    e ∈ es :=
  (mem_insertAll h).resolve_right (List.not_mem_nil)

theorem get?_eq_none {d : Dict α} {name : String} (h : ∀ e ∈ d.entries, e.1 ≠ name) :
    d.get? name = none := by
  cases hget : d.get? name with
  | none => rfl
  | some value => exact absurd rfl (h _ (mem_entries_of_get? hget))

private theorem insertAll_entries {d : Dict α} {es : List (String × α)}
    (h : (d.entries ++ es).Pairwise fun a b => a.1 < b.1) :
    (d.insertAll es).entries = d.entries ++ es := by
  induction es generalizing d with
  | nil => exact (List.append_nil _).symm
  | cons e rest ih =>
      have hbelow : ∀ a ∈ d.entries, a.1 < e.1 := fun a ha =>
        (List.pairwise_append.mp h).2.2 a ha e List.mem_cons_self
      have hput : (d.insert e.1 e.2).entries = d.entries ++ [e] := put_of_lt hbelow
      rw [List.append_cons, ← hput] at h ⊢
      exact ih h

/-- A dictionary is that of its own entries. -/
theorem ofList_entries (d : Dict α) : ofList d.entries = d := by
  apply Dict.ext
  exact insertAll_entries (d := empty) d.sorted

end Dict

/-- A set of names, listed in strictly increasing order. -/
structure Names where
  toList : List String
  sorted : toList.Pairwise (· < ·)
deriving DecidableEq

namespace Names

private def put (name : String) : List String → List String
  | [] => [name]
  | n :: rest =>
      if name < n then name :: n :: rest
      else if name = n then n :: rest
      else n :: put name rest

private theorem mem_put {name m : String} {ns : List String} :
    m ∈ put name ns ↔ m = name ∨ m ∈ ns := by
  induction ns with
  | nil => simp [put]
  | cons n rest ih =>
      simp only [put]
      split
      · simp
      · split
        next heq => simp [heq]
        next => simp [ih, or_left_comm]

private theorem sorted_put (name : String) (ns : List String) (h : ns.Pairwise (· < ·)) :
    (put name ns).Pairwise (· < ·) := by
  induction ns with
  | nil => simp [put]
  | cons n rest ih =>
      obtain ⟨hn, hr⟩ := List.pairwise_cons.mp h
      simp only [put]
      split
      next hlt =>
        refine List.pairwise_cons.mpr ⟨fun m hm => ?_, h⟩
        rcases List.mem_cons.mp hm with rfl | hm
        · exact hlt
        · exact String.lt_trans hlt (hn m hm)
      next hnlt =>
        split
        next => exact h
        next hne =>
          refine List.pairwise_cons.mpr ⟨fun m hm => ?_, ih hr⟩
          rcases mem_put.mp hm with rfl | hm
          · exact String.not_le.mp fun hle =>
              hne (String.le_antisymm hle (String.not_lt.mp hnlt))
          · exact hn m hm

def empty : Names := ⟨[], .nil⟩

instance : Inhabited Names := ⟨empty⟩

def insert (ns : Names) (name : String) : Names :=
  ⟨put name ns.toList, sorted_put name ns.toList ns.sorted⟩

def contains (ns : Names) (name : String) : Bool := ns.toList.contains name

def insertAll (ns : Names) (names : List String) : Names := names.foldl insert ns

def ofList (names : List String) : Names := empty.insertAll names

@[simp] theorem contains_iff {ns : Names} {name : String} :
    ns.contains name = true ↔ name ∈ ns.toList := by
  simp [contains]

@[simp] theorem mem_insert {ns : Names} {name m : String} :
    m ∈ (ns.insert name).toList ↔ m = name ∨ m ∈ ns.toList := mem_put

theorem mem_insertAll {ns : Names} {names : List String} {m : String} :
    m ∈ (ns.insertAll names).toList ↔ m ∈ names ∨ m ∈ ns.toList := by
  unfold insertAll
  induction names generalizing ns with
  | nil => simp
  | cons n rest ih => simp [ih, or_left_comm, or_assoc]

@[simp] theorem mem_ofList {names : List String} {m : String} :
    m ∈ (ofList names).toList ↔ m ∈ names := by
  simp [ofList, mem_insertAll, empty]

end Names

end KeyedMarkup
