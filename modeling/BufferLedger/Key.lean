/-!
# Keys of namespaced objects

A key is a namespace and a name. Keys are ordered by namespace, then by name, and both by
code points, which is also the order of their UTF-8 bytes. The order is total, so it can order
a map.
-/

namespace BufferLedger

/-- A strict order in which any two different elements are comparable. -/
class TotalOrder (κ : Type) [LT κ] : Prop where
  irrefl (a : κ) : ¬ a < a
  trans {a b c : κ} : a < b → b < c → a < c
  trichotomy (a b : κ) : a < b ∨ a = b ∨ b < a

theorem TotalOrder.asymm {κ : Type} [LT κ] [TotalOrder κ] {a b : κ} (h : a < b) : ¬ b < a :=
  fun h' => irrefl a (trans h h')

theorem TotalOrder.ne {κ : Type} [LT κ] [TotalOrder κ] {a b : κ} (h : a < b) : a ≠ b :=
  fun h' => irrefl b (h' ▸ h)

instance : TotalOrder String where
  irrefl := String.lt_irrefl
  trans := String.lt_trans
  trichotomy a b := by
    by_cases h : a < b
    · exact .inl h
    · by_cases h' : b < a
      · exact .inr (.inr h')
      · exact .inr (.inl (String.le_antisymm (String.not_lt.1 h') (String.not_lt.1 h)))

structure Key where
  space : String
  name : String
  deriving DecidableEq

namespace Key

def text (k : Key) : String :=
  k.space ++ "/" ++ k.name

instance : LT Key where
  lt a b := a.space < b.space ∨ (a.space = b.space ∧ a.name < b.name)

instance : DecidableLT Key :=
  fun a b => inferInstanceAs (Decidable (a.space < b.space ∨ (a.space = b.space ∧ a.name < b.name)))

instance : TotalOrder Key where
  irrefl a h := h.elim (TotalOrder.irrefl _) (fun h' => TotalOrder.irrefl _ h'.2)
  trans := by
    rintro a b c (h | ⟨h, h'⟩) (g | ⟨g, g'⟩)
    · exact .inl (TotalOrder.trans h g)
    · exact .inl (g ▸ h)
    · exact .inl (h ▸ g)
    · exact .inr ⟨h.trans g, TotalOrder.trans h' g'⟩
  trichotomy a b := by
    obtain ⟨s, n⟩ := a
    obtain ⟨s', n'⟩ := b
    rcases TotalOrder.trichotomy s s' with h | rfl | h
    · exact .inl (.inl h)
    · rcases TotalOrder.trichotomy n n' with h | rfl | h
      · exact .inl (.inr ⟨rfl, h⟩)
      · exact .inr (.inl rfl)
      · exact .inr (.inr (.inr ⟨rfl, h⟩))
    · exact .inr (.inr (.inl h))

end Key

end BufferLedger
