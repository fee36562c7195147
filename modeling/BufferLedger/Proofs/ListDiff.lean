import BufferLedger.Proofs.Calls
import BufferLedger.Watch.Engine

/-!
# Changes of a collection, key by key

A list with distinct keys and an event both act on each key by itself: what becomes of a key, and
which calls are about it, depends on the object under that key alone (`Input.change_at`). The
loop over a list consumes the old copy while it fills the new one; the three lemmas on
`Collection.merge` say what is left of the one, what is in the other and what was told. Statements
about one key go by the cases of `Input.Effect`.
-/

namespace BufferLedger

open ClusterObject (key version)

namespace OrderedMap

variable {κ α : Type} [LT κ] [DecidableEq κ] [TotalOrder κ]

def restrict (keep : κ → Bool) (m : OrderedMap κ α) : OrderedMap κ α :=
  ⟨m.toList.filter fun e => keep e.1, m.ascending.filter _⟩

theorem get?_restrict (keep : κ → Bool) (m : OrderedMap κ α) (k : κ) :
    (m.restrict keep).get? k = if keep k then m.get? k else none := by
  refine Option.ext fun x => ?_
  rw [← mem_toList_iff, restrict, List.mem_filter, mem_toList_iff]
  cases keep k <;> simp

omit [DecidableEq κ] in
theorem nodup_keys (m : OrderedMap κ α) : m.keys.Nodup := by
  rw [keys, List.nodup_iff_pairwise_ne, List.pairwise_map]
  exact m.ascending.imp TotalOrder.ne

end OrderedMap

variable {α : Type} [ClusterObject α]

def OwnKeys (m : OrderedMap Key α) : Prop :=
  ∀ k x, m.get? k = some x → key x = k

theorem ownKeys_empty : OwnKeys (.empty : OrderedMap Key α) := by
  intro k x h
  cases h

theorem OwnKeys.of_mem {m : OrderedMap Key α} (own : OwnKeys m) :
    ∀ e ∈ m.toList, key e.2 = e.1 :=
  fun e he => own e.1 e.2 (OrderedMap.mem_toList_iff.1 he)

theorem OwnKeys.applyTo {m : OrderedMap Key α} (own : OwnKeys m) (c : Call α) :
    OwnKeys (c.applyTo m) := by
  intro k x h
  rw [c.get?_applyTo] at h
  split at h
  · rename_i hk
    exact (c.key_of_result h).trans hk.symm
  · exact own k x h

namespace Collection

def WellKeyed (c : Collection α) : Prop :=
  OwnKeys c.objects

theorem wellKeyed_empty : (empty : Collection α).WellKeyed :=
  ownKeys_empty

theorem key_of_mem_callsFor {old : Option α} {x : α} {c : Call α} (h : c ∈ callsFor old x) :
    c.key = key x := by
  cases old with
  | none =>
    obtain rfl : c = .add x := by simpa [callsFor] using h
    rfl
  | some old =>
    obtain ⟨-, rfl⟩ : _ ∧ c = .update old x := by simpa [callsFor] using h
    rfl

/-! ## The loop over a list -/

theorem find_key_eq_none {items : List α} {k : Key} :
    items.find? (fun x => key x = k) = none ↔ k ∉ items.map key := by
  simp

theorem mem_of_find_key {items : List α} {k : Key} {x : α}
    (h : items.find? (fun x => key x = k) = some x) : x ∈ items ∧ key x = k :=
  ⟨List.mem_of_find?_eq_some h, by simpa using List.find?_some h⟩

theorem merge_left (items : List α) (old new : OrderedMap Key α) (k : Key) :
    (merge items old new).1.get? k = if k ∈ items.map key then none else old.get? k := by
  induction items generalizing old new with
  | nil => simp [merge]
  | cons x xs ih =>
    simp only [merge, ih, old.get?_erase, List.map_cons, List.mem_cons]
    by_cases hx : k = key x <;> simp [hx]

theorem merge_objects {items : List α} (distinct : (items.map key).Nodup)
    (old new : OrderedMap Key α) (k : Key) :
    (merge items old new).2.1.get? k = (items.find? fun x => key x = k).or (new.get? k) := by
  induction items generalizing old new with
  | nil => simp [merge]
  | cons x xs ih =>
    obtain ⟨hx, hxs⟩ := List.nodup_cons.1 distinct
    simp only [merge, ih hxs, new.get?_insert]
    by_cases hk : key x = k
    · rw [hk] at hx
      simp [hk, find_key_eq_none.2 hx]
    · simp [hk, Ne.symm hk]

theorem merge_calls {items : List α} (distinct : (items.map key).Nodup)
    (old new : OrderedMap Key α) (k : Key) :
    callsAbout k (merge items old new).2.2 =
      ((items.find? fun x => key x = k).map (callsFor (old.get? k))).getD [] := by
  induction items generalizing old new with
  | nil => rfl
  | cons x xs ih =>
    obtain ⟨hx, hxs⟩ := List.nodup_cons.1 distinct
    simp only [merge, callsAbout_append, ih hxs, old.get?_erase]
    by_cases hk : key x = k
    · rw [hk] at hx
      have hself : callsAbout k (callsFor (old.get? k) x) = callsFor (old.get? k) x :=
        callsAbout_eq_self fun c hc => (key_of_mem_callsFor hc).trans hk
      simp [hk, find_key_eq_none.2 hx, hself]
    · have hnil : callsAbout k (callsFor (old.get? (key x)) x) = [] :=
        callsAbout_eq_nil fun c hc hck => hk ((key_of_mem_callsFor hc).symm.trans hck)
      simp [hk, Ne.symm hk, hnil]

/-! ## What is left of the old copy -/

theorem filter_values {l : List (Key × α)} (ascending : l.Pairwise fun a b => a.1 < b.1)
    (own : ∀ e ∈ l, key e.2 = e.1) (k : Key) :
    (l.map Prod.snd).filter (fun x => key x = k) = (OrderedMap.lookup k l).toList := by
  induction l with
  | nil => rfl
  | cons e l ih =>
    obtain ⟨k', x⟩ := e
    obtain ⟨head, tail⟩ := List.pairwise_cons.1 ascending
    have hx : key x = k' := own _ (List.mem_cons_self ..)
    have hl := ih tail fun e he => own e (List.mem_cons_of_mem _ he)
    by_cases hk : k = k'
    · subst hk
      rw [OrderedMap.lookup_eq_none head] at hl
      simpa [OrderedMap.lookup, hx] using hl
    · simpa [OrderedMap.lookup, hk, hx, Ne.symm hk] using hl

theorem callsAbout_deletions {m : OrderedMap Key α} (own : OwnKeys m) (k : Key) :
    callsAbout k (m.values.map fun x => Call.delete x true) =
      (m.get? k).toList.map fun x => Call.delete x true := by
  rw [callsAbout, List.filter_map]
  exact congrArg _ (filter_values m.ascending own.of_mem k)

end Collection

/-! ## One key -/

def Input.change (i : Input α) (c : Collection α) : Collection α × List (Call α) :=
  match i with
  | .listed (.ok l) => c.replace l
  | .received (.ok e) => c.observe e
  | _ => (c, [])

def Input.Distinct : Input α → Prop
  | .listed (.ok l) => (l.items.map key).Nodup
  | _ => True

/-- What becomes of the object under one key, and the calls about that key. -/
def Input.changeAt (k : Key) (i : Input α) (old : Option α) : Option α × List (Call α) :=
  match i with
  | .listed (.ok l) =>
    match l.items.find? fun x => key x = k with
    | some x => (some x, Collection.callsFor old x)
    | none => (none, old.toList.map fun x => .delete x true)
  | .received (.ok (.added x)) | .received (.ok (.modified x)) =>
    if key x = k then
      (some x, [match old with
        | some old => .update old x
        | none => .add x])
    else (old, [])
  | .received (.ok (.deleted x)) => if key x = k then (none, [.delete x false]) else (old, [])
  | _ => (old, [])

theorem Collection.replace_at {l : Listing α} {c : Collection α} (own : c.WellKeyed)
    (distinct : (l.items.map key).Nodup) (k : Key) :
    (c.replace l).1.objects.get? k = (Input.changeAt k (.listed (.ok l)) (c.objects.get? k)).1 ∧
    callsAbout k (c.replace l).2 =
      (Input.changeAt k (.listed (.ok l)) (c.objects.get? k)).2 := by
  have hleft := merge_left l.items c.objects .empty k
  have hobjects := merge_objects distinct c.objects .empty k
  have hcalls := merge_calls distinct c.objects .empty k
  have howned : OwnKeys (merge l.items c.objects .empty).1 := by
    intro k x hx
    rw [merge_left] at hx
    split at hx
    · cases hx
    · exact own k x hx
  have hdeleted := callsAbout_deletions howned k
  rw [hleft] at hdeleted
  simp only [replace, callsAbout_append, hobjects, hcalls, hdeleted, Input.changeAt]
  cases hfind : l.items.find? fun x => key x = k with
  | none =>
    have hk := find_key_eq_none.1 hfind
    simp [hk]
  | some x =>
    have hk : k ∈ l.items.map key := List.mem_map.2 ⟨x, mem_of_find_key hfind⟩
    simp [hk]

theorem Collection.put_at (x : α) (c : Collection α) (k : Key) :
    (c.put x).1.objects.get? k =
      (Input.changeAt k (.received (.ok (.added x))) (c.objects.get? k)).1 ∧
    callsAbout k (c.put x).2 =
      (Input.changeAt k (.received (.ok (.added x))) (c.objects.get? k)).2 := by
  by_cases hk : key x = k
  · subst hk
    cases hold : c.objects.get? (key x) <;>
      simp [put, Input.changeAt, hold, callsAbout, Call.key]
  · cases hold : c.objects.get? (key x) <;>
      simp [put, Input.changeAt, hold, callsAbout, Call.key, c.objects.get?_insert, hk, Ne.symm hk]

theorem Input.change_at {i : Input α} {c : Collection α} (own : c.WellKeyed)
    (distinct : i.Distinct) (k : Key) :
    (i.change c).1.objects.get? k = (i.changeAt k (c.objects.get? k)).1 ∧
    callsAbout k (i.change c).2 = (i.changeAt k (c.objects.get? k)).2 := by
  match i with
  | .listed (.ok l) => exact Collection.replace_at own distinct k
  | .received (.ok (.added x)) => exact Collection.put_at x c k
  | .received (.ok (.modified x)) => exact Collection.put_at x c k
  | .received (.ok (.deleted x)) =>
    by_cases hk : key x = k
    · simp [change, changeAt, Collection.observe, callsAbout, Call.key, c.objects.get?_erase, hk]
    · simp [change, changeAt, Collection.observe, callsAbout, Call.key, c.objects.get?_erase, hk,
        Ne.symm hk]
  | .received (.ok (.bookmark v)) => exact ⟨rfl, rfl⟩
  | .listed (.error e) | .received (.error e) | .opened a => exact ⟨rfl, rfl⟩
  | .closed | .elapsed | .cancel | .noticeCancel | .request r | .noticeRequest => exact ⟨rfl, rfl⟩

def Input.objects : Input α → List α
  | .listed (.ok l) => l.items
  | .received (.ok (.added x)) | .received (.ok (.modified x)) | .received (.ok (.deleted x)) => [x]
  | _ => []

/-- All that an input can do about one key: what the key has then, and the calls. -/
inductive Input.Effect (k : Key) (i : Input α) (old : Option α) : Option α × List (Call α) → Prop
  | add {x} : x ∈ i.objects → key x = k → old = none → Effect k i old (some x, [.add x])
  | update {o x} : x ∈ i.objects → key x = k → old = some o → Effect k i old (some x, [.update o x])
  | same {o x} : x ∈ i.objects → key x = k → old = some o → version o = version x →
      Effect k i old (some x, [])
  | missing {l o} : i = .listed (.ok l) → k ∉ l.items.map key → old = some o →
      Effect k i old (none, [.delete o true])
  | deleted {x} : i = .received (.ok (.deleted x)) → key x = k →
      Effect k i old (none, [.delete x false])
  | untouched : Effect k i old (old, [])

theorem Input.effect_listed (k : Key) (l : Listing α) (old : Option α) :
    Effect k (.listed (.ok l)) old (changeAt k (.listed (.ok l)) old) := by
  cases hfind : l.items.find? fun x => key x = k with
  | some x =>
    obtain ⟨hmem, hk⟩ := Collection.mem_of_find_key hfind
    have hx : x ∈ (Input.listed (.ok l)).objects := hmem
    simp only [changeAt, hfind]
    cases old with
    | none => exact .add hx hk rfl
    | some o =>
      by_cases hv : version o = version x
      · simpa [Collection.callsFor, hv] using Effect.same hx hk rfl hv
      · simpa [Collection.callsFor, hv] using Effect.update hx hk rfl
  | none =>
    simp only [changeAt, hfind]
    cases old with
    | none => exact .untouched
    | some o => exact .missing rfl (Collection.find_key_eq_none.1 hfind) rfl

theorem Input.effect_put {k : Key} {i : Input α} {x : α} (old : Option α)
    (hx : x ∈ i.objects) (h : i.changeAt k old = changeAt k (.received (.ok (.added x))) old) :
    Effect k i old (i.changeAt k old) := by
  rw [h]
  by_cases hk : key x = k
  · simp only [changeAt, hk, if_true]
    cases old with
    | none => exact .add hx hk rfl
    | some o => exact .update hx hk rfl
  · simp only [changeAt, hk, if_false]
    exact .untouched

theorem Input.effect (k : Key) (i : Input α) (old : Option α) :
    i.Effect k old (i.changeAt k old) := by
  match i with
  | .listed (.ok l) => exact effect_listed k l old
  | .received (.ok (.added x)) => exact effect_put old (List.mem_singleton_self x) rfl
  | .received (.ok (.modified x)) => exact effect_put old (List.mem_singleton_self x) rfl
  | .received (.ok (.deleted x)) =>
    by_cases hk : key x = k
    · simp only [changeAt, hk, if_true]
      exact .deleted rfl hk
    · simp only [changeAt, hk, if_false]
      exact .untouched
  | .received (.ok (.bookmark v)) => exact .untouched
  | .listed (.error e) | .received (.error e) | .opened a => exact .untouched
  | .closed | .elapsed | .cancel | .noticeCancel | .request r | .noticeRequest => exact .untouched

theorem Input.key_of_changeAt {k : Key} {i : Input α} {old : Option α} {x : α}
    (own : ∀ x, old = some x → key x = k) (h : (i.changeAt k old).1 = some x) : key x = k := by
  have heffect := i.effect k old
  generalize i.changeAt k old = r at heffect h
  cases heffect with
  | add _ hk _ | update _ hk _ | same _ hk _ _ =>
    cases h
    exact hk
  | missing _ _ _ | deleted _ _ => cases h
  | untouched => exact own x h

theorem Input.change_wellKeyed {i : Input α} {c : Collection α} (own : c.WellKeyed)
    (distinct : i.Distinct) : (i.change c).1.WellKeyed := by
  intro k x hx
  rw [(change_at own distinct k).1] at hx
  exact key_of_changeAt (own k) hx

end BufferLedger
