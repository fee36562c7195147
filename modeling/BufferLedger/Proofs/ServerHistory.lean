import BufferLedger.Proofs.ListDiff

/-!
# The history of a collection on its server

A server has changed its collection one object at a time, each time under a later version. The
collection at a version is what the changes up to that version make of an empty one. A list of
that collection, in whatever order, brings any copy to it (`Server.objects_replace`).
-/

namespace BufferLedger

open ClusterObject (key)

structure Change (ν α : Type) where
  version : ν
  object : α
  removes : Bool

namespace Change

variable {ν α : Type}

section Order

variable [LT ν] [DecidableLT ν]

def upTo (v : ν) (history : List (Change ν α)) : List (Change ν α) :=
  history.filter fun c => ¬ v < c.version

def next? (v : ν) (history : List (Change ν α)) : Option (Change ν α) :=
  history.find? fun c => v < c.version

theorem upTo_eq_nil {history : List (Change ν α)} {v : ν} (h : ∀ c ∈ history, v < c.version) :
    upTo v history = [] := by
  simpa [upTo] using h

theorem upTo_cons {history : List (Change ν α)} {v : ν} {c : Change ν α} (h : ¬ v < c.version) :
    upTo v (c :: history) = c :: upTo v history :=
  List.filter_cons_of_pos (decide_eq_true h)

theorem upTo_next [TotalOrder ν] {history : List (Change ν α)} {v : ν} {c : Change ν α}
    (ascending : history.Pairwise fun a b => a.version < b.version)
    (h : next? v history = some c) : upTo c.version history = upTo v history ++ [c] := by
  induction history with
  | nil => cases h
  | cons a rest ih =>
    obtain ⟨head, tail⟩ := List.pairwise_cons.1 ascending
    by_cases ha : v < a.version
    · obtain rfl : a = c := by simpa [next?, ha] using h
      have hlater : ∀ b ∈ a :: rest, v < b.version := by
        intro b hb
        rcases List.mem_cons.1 hb with rfl | hb
        · exact ha
        · exact TotalOrder.trans ha (head b hb)
      rw [upTo_cons (TotalOrder.irrefl _), upTo_eq_nil head, upTo_eq_nil hlater]
      rfl
    · have hrest : next? v rest = some c := by simpa [next?, ha] using h
      have hc : ¬ c.version < a.version :=
        TotalOrder.asymm (head c (List.mem_of_find?_eq_some hrest))
      rw [upTo_cons hc, upTo_cons ha, ih tail hrest]
      rfl

end Order

variable [ClusterObject α]

def applyTo (c : Change ν α) (m : OrderedMap Key α) : OrderedMap Key α :=
  if c.removes then m.erase (key c.object) else m.insert (key c.object) c.object

theorem ownKeys_applyTo {c : Change ν α} {m : OrderedMap Key α} (own : OwnKeys m) :
    OwnKeys (c.applyTo m) := by
  intro k x h
  unfold applyTo at h
  split at h
  · rw [m.get?_erase] at h
    split at h
    · cases h
    · exact own k x h
  · rw [m.get?_insert] at h
    split at h
    · rename_i hk
      cases h
      exact hk.symm
    · exact own k x h

theorem ownKeys_foldl (changes : List (Change ν α)) {m : OrderedMap Key α} (own : OwnKeys m) :
    OwnKeys (changes.foldl (fun m c => c.applyTo m) m) := by
  induction changes generalizing m with
  | nil => exact own
  | cons c changes ih => exact ih (ownKeys_applyTo own)

end Change

/-! ## Lists of a collection -/

section Lists

variable {α : Type} [ClusterObject α] {m : OrderedMap Key α} {items : List α}

theorem OwnKeys.values (own : OwnKeys m) : m.values.map key = m.keys := by
  rw [OrderedMap.values, OrderedMap.keys, List.map_map]
  exact List.map_congr_left own.of_mem

theorem nodup_of_perm (own : OwnKeys m) (hperm : items.Perm m.values) :
    (items.map key).Nodup := by
  have hkeys : (items.map key).Perm m.keys := own.values ▸ hperm.map key
  exact hkeys.nodup_iff.2 m.nodup_keys

theorem find_of_perm (own : OwnKeys m) (hperm : items.Perm m.values) (k : Key) :
    items.find? (fun x => key x = k) = m.get? k := by
  have hfilter : (items.filter fun x => key x = k).Perm (m.get? k).toList :=
    Collection.filter_values m.ascending own.of_mem k ▸ hperm.filter _
  -- At most one object stands under a key, so the order of the list does not matter.
  rw [← List.head?_filter]
  cases hk : m.get? k with
  | none =>
    rw [hk] at hfilter
    rw [hfilter.eq_nil]
    rfl
  | some x =>
    rw [hk] at hfilter
    rw [List.perm_singleton.1 hfilter]
    rfl

theorem objects_replace {c : Collection α} {l : Listing α} (own : OwnKeys m)
    (hperm : l.items.Perm m.values) : (c.replace l).1.objects = m := by
  refine OrderedMap.ext_get? fun k => ?_
  have hmerge := Collection.merge_objects (nodup_of_perm own hperm) c.objects .empty k
  rw [find_of_perm own hperm, OrderedMap.get?_empty, Option.or_none] at hmerge
  exact hmerge

end Lists

/-! ## Servers -/

/-- Objects carry the version under which they changed, as text. -/
structure Server (ν α : Type) [LT ν] [ClusterObject α] where
  history : List (Change ν α)
  text : ν → String
  ascending : history.Pairwise fun a b => a.version < b.version
  text_injective {v w : ν} : text v = text w → v = w
  stamped : ∀ c ∈ history, ClusterObject.version c.object = some (text c.version)

namespace Server

variable {ν α : Type} [LT ν] [DecidableLT ν] [ClusterObject α]

def upTo (srv : Server ν α) (v : ν) : List (Change ν α) :=
  Change.upTo v srv.history

def next? (srv : Server ν α) (v : ν) : Option (Change ν α) :=
  Change.next? v srv.history

def stateAt (srv : Server ν α) (v : ν) : OrderedMap Key α :=
  (srv.upTo v).foldl (fun m c => c.applyTo m) .empty

def Lists (srv : Server ν α) (v : ν) (l : Listing α) : Prop :=
  l.version = some (srv.text v) ∧ l.items.Perm (srv.stateAt v).values

theorem ownKeys_stateAt (srv : Server ν α) (v : ν) : OwnKeys (srv.stateAt v) :=
  Change.ownKeys_foldl _ ownKeys_empty

theorem objects_of_lists {srv : Server ν α} {v : ν} {l : Listing α} (h : srv.Lists v l)
    (c : Collection α) : (c.replace l).1.objects = srv.stateAt v :=
  objects_replace (srv.ownKeys_stateAt v) h.2

theorem version_of_lists {srv : Server ν α} {v : ν} {l : Listing α} (h : srv.Lists v l)
    (c : Collection α) : (c.replace l).1.version = srv.text v := by
  have hversion : (c.replace l).1.version = l.version.getD "" := rfl
  rw [hversion, h.1, Option.getD_some]

theorem upTo_next [TotalOrder ν] {srv : Server ν α} {v : ν} {c : Change ν α}
    (h : srv.next? v = some c) : srv.upTo c.version = srv.upTo v ++ [c] :=
  Change.upTo_next srv.ascending h

theorem stateAt_next [TotalOrder ν] {srv : Server ν α} {v : ν} {c : Change ν α}
    (h : srv.next? v = some c) : srv.stateAt c.version = c.applyTo (srv.stateAt v) := by
  rw [stateAt, upTo_next h, List.foldl_append]
  rfl

end Server

end BufferLedger
