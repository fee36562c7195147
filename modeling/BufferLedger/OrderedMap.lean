import BufferLedger.Key

/-!
# Maps ordered by their keys

A map is its list of entries, strictly ascending by key, so that walking a map needs no
sorting and two maps with the same look-ups are equal (`OrderedMap.ext_get?`). The other
operations are described by what they do to look-ups.
-/

namespace BufferLedger

structure OrderedMap (κ α : Type) [LT κ] where
  toList : List (κ × α)
  ascending : toList.Pairwise (fun a b => a.1 < b.1)

namespace OrderedMap

variable {κ α : Type}

def insertEntry [LT κ] [DecidableLT κ] [DecidableEq κ] (k : κ) (x : α) :
    List (κ × α) → List (κ × α)
  | [] => [(k, x)]
  | (k', x') :: rest =>
    if k < k' then (k, x) :: (k', x') :: rest
    else if k = k' then (k, x) :: rest
    else (k', x') :: insertEntry k x rest

def lookup [DecidableEq κ] (k : κ) : List (κ × α) → Option α
  | [] => none
  | (k', x) :: rest => if k = k' then some x else lookup k rest

def dropEntry [DecidableEq κ] (k : κ) : List (κ × α) → List (κ × α)
  | [] => []
  | (k', x) :: rest => if k = k' then rest else (k', x) :: dropEntry k rest

section Entries

variable [LT κ] [DecidableLT κ] [DecidableEq κ]

theorem mem_insertEntry {k : κ} {x : α} {a : κ × α} {l : List (κ × α)}
    (h : a ∈ insertEntry k x l) : a = (k, x) ∨ a ∈ l := by
  induction l with
  | nil => simpa [insertEntry] using h
  | cons hd tl ih =>
    obtain ⟨k', x'⟩ := hd
    rw [insertEntry] at h
    split at h
    · simpa using h
    · split at h <;> grind

theorem insertEntry_ascending [TotalOrder κ] (k : κ) (x : α) {l : List (κ × α)}
    (h : l.Pairwise (fun a b => a.1 < b.1)) :
    (insertEntry k x l).Pairwise (fun a b => a.1 < b.1) := by
  induction l with
  | nil => simp [insertEntry]
  | cons hd tl ih =>
    obtain ⟨k', x'⟩ := hd
    obtain ⟨head, tail⟩ := List.pairwise_cons.1 h
    rw [insertEntry]
    split
    · rename_i hlt
      refine List.pairwise_cons.2 ⟨fun a ha => ?_, h⟩
      rcases List.mem_cons.1 ha with rfl | ha
      · exact hlt
      · exact TotalOrder.trans hlt (head a ha)
    · split
      · rename_i heq
        subst heq
        exact List.pairwise_cons.2 ⟨head, tail⟩
      · rename_i hnlt hne
        refine List.pairwise_cons.2 ⟨fun a ha => ?_, ih tail⟩
        rcases mem_insertEntry ha with rfl | ha
        · rcases TotalOrder.trichotomy k k' with h' | h' | h'
          · exact absurd h' hnlt
          · exact absurd h' hne
          · exact h'
        · exact head a ha

theorem lookup_insertEntry (k k' : κ) (x : α) (l : List (κ × α)) :
    lookup k' (insertEntry k x l) = if k' = k then some x else lookup k' l := by
  induction l with
  | nil => simp [insertEntry, lookup]
  | cons hd tl ih =>
    obtain ⟨k'', x''⟩ := hd
    rw [insertEntry]
    split
    · simp [lookup]
    · split
      · rename_i heq
        subst heq
        by_cases h : k' = k <;> simp [lookup, h]
      · rename_i hne
        by_cases h : k' = k''
        · subst h
          simp [lookup, Ne.symm hne]
        · simp [lookup, h, ih]

end Entries

theorem lookup_eq_none [LT κ] [DecidableEq κ] [TotalOrder κ] {k : κ} {l : List (κ × α)}
    (h : ∀ a ∈ l, k < a.1) : lookup k l = none := by
  induction l with
  | nil => rfl
  | cons hd tl ih =>
    obtain ⟨k', x⟩ := hd
    have hne : k ≠ k' := TotalOrder.ne (h _ (List.mem_cons_self ..))
    simp [lookup, hne, ih fun a ha => h a (List.mem_cons_of_mem _ ha)]

theorem dropEntry_sublist [DecidableEq κ] (k : κ) (l : List (κ × α)) :
    (dropEntry k l).Sublist l := by
  induction l with
  | nil => exact .slnil
  | cons hd tl ih =>
    obtain ⟨k', x⟩ := hd
    rw [dropEntry]
    split
    · exact .cons _ (List.Sublist.refl _)
    · exact ih.cons_cons _

theorem lookup_dropEntry [LT κ] [DecidableEq κ] [TotalOrder κ] (k k' : κ) {l : List (κ × α)}
    (h : l.Pairwise (fun a b => a.1 < b.1)) :
    lookup k' (dropEntry k l) = if k' = k then none else lookup k' l := by
  induction l with
  | nil => simp [dropEntry, lookup]
  | cons hd tl ih =>
    obtain ⟨k'', x''⟩ := hd
    obtain ⟨head, tail⟩ := List.pairwise_cons.1 h
    rw [dropEntry]
    split
    · rename_i heq
      subst heq
      by_cases h' : k' = k
      · subst h'
        simp [lookup_eq_none head]
      · simp [lookup, h']
    · rename_i hne
      by_cases h' : k' = k''
      · subst h'
        simp [lookup, Ne.symm hne]
      · simp [lookup, h', ih tail]

section LookUps

variable [LT κ] [DecidableEq κ]

def empty : OrderedMap κ α := ⟨[], .nil⟩

instance : Inhabited (OrderedMap κ α) := ⟨empty⟩

def get? (m : OrderedMap κ α) (k : κ) : Option α :=
  lookup k m.toList

def erase (m : OrderedMap κ α) (k : κ) : OrderedMap κ α :=
  ⟨dropEntry k m.toList, m.ascending.sublist (dropEntry_sublist k m.toList)⟩

def size (m : OrderedMap κ α) : Nat := m.toList.length

def isEmpty (m : OrderedMap κ α) : Bool := m.toList.isEmpty

def keys (m : OrderedMap κ α) : List κ := m.toList.map Prod.fst

def values (m : OrderedMap κ α) : List α := m.toList.map Prod.snd

@[simp] theorem get?_empty (k : κ) : (empty : OrderedMap κ α).get? k = none := rfl

variable [TotalOrder κ]

theorem get?_erase (m : OrderedMap κ α) (k k' : κ) :
    (m.erase k).get? k' = if k' = k then none else m.get? k' :=
  lookup_dropEntry k k' m.ascending

theorem lookup_eq_some_iff {k : κ} {x : α} {l : List (κ × α)}
    (h : l.Pairwise (fun a b => a.1 < b.1)) : lookup k l = some x ↔ (k, x) ∈ l := by
  induction l with
  | nil => simp [lookup]
  | cons hd tl ih =>
    obtain ⟨k', x'⟩ := hd
    obtain ⟨head, tail⟩ := List.pairwise_cons.1 h
    by_cases hk : k = k'
    · subst hk
      have hnot : (k, x) ∉ tl := fun hm => TotalOrder.irrefl k (head (k, x) hm)
      simp [lookup, hnot, eq_comm]
    · simp [lookup, hk, ih tail]

theorem mem_toList_iff {m : OrderedMap κ α} {k : κ} {x : α} :
    (k, x) ∈ m.toList ↔ m.get? k = some x :=
  (lookup_eq_some_iff m.ascending).symm

theorem toList_eq_of_get? {l₁ l₂ : List (κ × α)}
    (h₁ : l₁.Pairwise (fun a b => a.1 < b.1)) (h₂ : l₂.Pairwise (fun a b => a.1 < b.1))
    (h : ∀ k, lookup k l₁ = lookup k l₂) : l₁ = l₂ := by
  induction l₁ generalizing l₂ with
  | nil =>
    cases l₂ with
    | nil => rfl
    | cons b _ =>
      have := h b.1
      simp [lookup] at this
  | cons a t₁ ih =>
    obtain ⟨k, x⟩ := a
    obtain ⟨head₁, tail₁⟩ := List.pairwise_cons.1 h₁
    cases l₂ with
    | nil =>
      have := h k
      simp [lookup] at this
    | cons b t₂ =>
      obtain ⟨k', x'⟩ := b
      obtain ⟨head₂, tail₂⟩ := List.pairwise_cons.1 h₂
      have hk : k = k' := by
        rcases TotalOrder.trichotomy k k' with hlt | heq | hlt
        · have hnone : lookup k ((k', x') :: t₂) = none :=
            lookup_eq_none fun a ha => by
              rcases List.mem_cons.1 ha with rfl | ha
              · exact hlt
              · exact TotalOrder.trans hlt (head₂ a ha)
          have := h k
          rw [hnone] at this
          simp [lookup] at this
        · exact heq
        · have hnone : lookup k' ((k, x) :: t₁) = none :=
            lookup_eq_none fun a ha => by
              rcases List.mem_cons.1 ha with rfl | ha
              · exact hlt
              · exact TotalOrder.trans hlt (head₁ a ha)
          have := h k'
          rw [hnone] at this
          simp [lookup] at this
      subst hk
      have hx : x = x' := by simpa [lookup] using h k
      subst hx
      congr 1
      refine ih tail₁ tail₂ fun j => ?_
      by_cases hj : j = k
      · subst hj
        rw [lookup_eq_none head₁, lookup_eq_none head₂]
      · simpa [lookup, hj] using h j

theorem ext_get? {m₁ m₂ : OrderedMap κ α} (h : ∀ k, m₁.get? k = m₂.get? k) : m₁ = m₂ := by
  obtain ⟨l₁, p₁⟩ := m₁
  obtain ⟨l₂, p₂⟩ := m₂
  have : l₁ = l₂ := toList_eq_of_get? p₁ p₂ h
  subst this
  rfl

instance [DecidableEq α] : DecidableEq (OrderedMap κ α) := fun m₁ m₂ =>
  decidable_of_iff (m₁.toList = m₂.toList) ⟨fun h => by
    obtain ⟨l₁, p₁⟩ := m₁
    obtain ⟨l₂, p₂⟩ := m₂
    subst h
    rfl, fun h => h ▸ rfl⟩

end LookUps

section Insertion

variable [LT κ] [DecidableLT κ] [DecidableEq κ] [TotalOrder κ]

def insert (m : OrderedMap κ α) (k : κ) (x : α) : OrderedMap κ α :=
  ⟨insertEntry k x m.toList, insertEntry_ascending k x m.ascending⟩

/-- Of two entries with one key the later one stays. -/
def ofList (entries : List (κ × α)) : OrderedMap κ α :=
  entries.foldl (fun m e => m.insert e.1 e.2) empty

theorem get?_insert (m : OrderedMap κ α) (k k' : κ) (x : α) :
    (m.insert k x).get? k' = if k' = k then some x else m.get? k' :=
  lookup_insertEntry k k' x m.toList

@[simp] theorem get?_insert_self (m : OrderedMap κ α) (k : κ) (x : α) :
    (m.insert k x).get? k = some x := by
  simp [get?_insert]

end Insertion

end OrderedMap

end BufferLedger
