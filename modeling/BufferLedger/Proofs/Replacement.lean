import Mathlib.Data.List.Nodup
import BufferLedger.Proofs.EngineRun

/-!
# What a list tells

A list replaces the copy and is told as the exact difference to it: first its objects in their
order, as far as they are new or have another version, then the objects that are missing from it in
the order of their keys. The loop takes the listed objects out of the old copy one by one. With
distinct keys it finds under each of them what was there in the beginning (`merge_tells`), and what
is left at the end is the part of the old copy that is not listed (`merge_rest`). The new copy owes
nothing to the old one (`get?_replace`), so the same list again has nothing to tell.
-/

namespace BufferLedger

open ClusterObject (key)

variable {α : Type} [ClusterObject α]

namespace Collection

variable {items : List α} {l : Listing α} {c : Collection α} {k : Key} {x : α}

/-- What there is to tell of a listed object: that its key is new, or that its version is not that
of the object which the copy has. -/
def news (c : Collection α) (x : α) : List (Call α) :=
  match c.objects.get? (key x) with
  | none => [.add x]
  | some old => if ClusterObject.version old = ClusterObject.version x then [] else [.update old x]

def missing (l : Listing α) (c : Collection α) : List α :=
  (c.objects.restrict fun k => k ∉ l.items.map key).values

/-! ## The loop -/

theorem news_eq (c : Collection α) (x : α) : c.news x = callsFor (c.objects.get? (key x)) x := by
  cases h : c.objects.get? (key x) <;> simp [news, callsFor, h]

theorem merge_tells (distinct : (items.map key).Nodup) (old new : OrderedMap Key α) :
    (merge items old new).2.2 = items.flatMap fun x => callsFor (old.get? (key x)) x := by
  induction items generalizing old new with
  | nil => rfl
  | cons x xs ih =>
    obtain ⟨hx, hxs⟩ := List.nodup_cons.1 distinct
    -- Taking the first object out of the old copy changes nothing for the keys of the others.
    have hothers : ∀ y ∈ xs, (old.erase (key x)).get? (key y) = old.get? (key y) := by
      intro y hy
      have hne : key y ≠ key x := fun h => hx (h ▸ List.mem_map_of_mem hy)
      rw [old.get?_erase, if_neg hne]
    simp only [merge, ih hxs, List.flatMap_cons]
    congr 1
    exact List.flatMap_congr fun y hy => by rw [hothers y hy]

theorem merge_rest (items : List α) (old new : OrderedMap Key α) :
    (merge items old new).1 = old.restrict fun k => k ∉ items.map key := by
  refine OrderedMap.ext_get? fun k => ?_
  rw [merge_left, OrderedMap.get?_restrict]
  by_cases hk : k ∈ items.map key <;> simp [hk]

theorem merge_listed (items : List α) (old new : OrderedMap Key α) (k : Key) :
    (merge items old new).2.1.get? k =
      (items.reverse.find? fun x => key x = k).or (new.get? k) := by
  induction items generalizing old new with
  | nil => simp [merge]
  | cons x xs ih =>
    simp only [merge, ih, new.get?_insert, List.reverse_cons, List.find?_append, Option.or_assoc]
    congr 1
    by_cases hk : key x = k
    · simp [hk]
    · simp [hk, Ne.symm hk]

theorem merge_empty (items : List α) (new : OrderedMap Key α) :
    (merge items .empty new).1 = .empty ∧ (merge items .empty new).2.2 = items.map .add := by
  induction items generalizing new with
  | nil => exact ⟨rfl, rfl⟩
  | cons x xs ih =>
    have herase : (OrderedMap.empty : OrderedMap Key α).erase (key x) = .empty := rfl
    obtain ⟨hleft, hcalls⟩ := ih (new.insert (key x) x)
    simp only [merge, herase, hleft, hcalls, callsFor, OrderedMap.get?_empty, List.map_cons,
      List.cons_append, List.nil_append, and_self]

/-! ## The new copy -/

theorem get?_replace (l : Listing α) (c : Collection α) (k : Key) :
    (c.replace l).1.objects.get? k = l.items.reverse.find? fun x => key x = k :=
  (merge_listed l.items c.objects .empty k).trans (Option.or_none ..)

theorem get?_replace_eq_some_iff (distinct : (l.items.map key).Nodup) :
    (c.replace l).1.objects.get? k = some x ↔ x ∈ l.items ∧ key x = k := by
  rw [get?_replace]
  constructor
  · intro h
    obtain ⟨hx, hk⟩ := mem_of_find_key h
    exact ⟨List.mem_reverse.1 hx, hk⟩
  · rintro ⟨hx, rfl⟩
    cases hfind : l.items.reverse.find? fun y => key y = key x with
    | none =>
      have hnot := find_key_eq_none.1 hfind
      exact absurd (List.mem_map_of_mem (List.mem_reverse.2 hx)) hnot
    | some y =>
      obtain ⟨hy, hkey⟩ := mem_of_find_key hfind
      rw [List.inj_on_of_nodup_map distinct (List.mem_reverse.1 hy) hx hkey]

/-- The copy has the objects of a list, of two with one key the later one, and its version. With
distinct keys it is the list. -/
structure Copies (l : Listing α) (c : Collection α) : Prop where
  last : ∀ k, c.objects.get? k = l.items.reverse.find? fun x => key x = k
  objects : (l.items.map key).Nodup → ∀ k x, c.objects.get? k = some x ↔ x ∈ l.items ∧ key x = k
  version : c.version = l.version.getD ""

theorem copies_replace (l : Listing α) (c : Collection α) : Copies l (c.replace l).1 :=
  ⟨get?_replace l c, fun distinct _ _ => get?_replace_eq_some_iff distinct, rfl⟩

theorem replace_fst_eq (l : Listing α) (c d : Collection α) :
    (c.replace l).1 = (d.replace l).1 := by
  have hobjects : (c.replace l).1.objects = (d.replace l).1.objects :=
    OrderedMap.ext_get? fun k => by rw [get?_replace, get?_replace]
  exact congrArg (Collection.mk · (l.version.getD "")) hobjects

/-! ## The calls -/

theorem calls_replace (distinct : (l.items.map key).Nodup) (c : Collection α) :
    (c.replace l).2 = l.items.flatMap c.news ++ (c.missing l).map fun x => .delete x true := by
  simp only [replace, merge_tells distinct, merge_rest, missing, funext (news_eq c)]

theorem calls_replace_empty (l : Listing α) :
    (Collection.empty.replace l).2 = l.items.map .add := by
  obtain ⟨hleft, hcalls⟩ := merge_empty l.items .empty
  have hvalues : (OrderedMap.empty : OrderedMap Key α).values = [] := rfl
  have hobjects : (Collection.empty : Collection α).objects = .empty := rfl
  simp only [replace, hobjects, hleft, hcalls, hvalues, List.map_nil, List.append_nil]

theorem news_replace (distinct : (l.items.map key).Nodup) (hx : x ∈ l.items) :
    (c.replace l).1.news x = [] := by
  have hsame := (get?_replace_eq_some_iff (c := c) distinct).2 ⟨hx, rfl⟩
  simp [news, hsame]

theorem missing_replace (l : Listing α) (c : Collection α) : (c.replace l).1.missing l = [] := by
  have hempty : ((c.replace l).1.objects.restrict fun k => k ∉ l.items.map key) = .empty := by
    refine OrderedMap.ext_get? fun k => ?_
    rw [OrderedMap.get?_restrict, get?_replace]
    by_cases hk : k ∈ l.items.map key
    · simp [hk]
    · have hfind : l.items.reverse.find? (fun x => key x = k) = none :=
        find_key_eq_none.2 (by simpa using hk)
      simp [hfind]
  rw [missing, hempty]
  rfl

/-- A list with distinct keys is told in its order, object by object as far as there is news, and
then come the deletions of what is missing from it. The copy then is the list, and the same list
again tells nothing and changes nothing. -/
theorem replace_exact (distinct : (l.items.map key).Nodup) (c : Collection α) :
    (c.replace l).2 = l.items.flatMap c.news ++ ((c.missing l).map fun x => .delete x true) ∧
    (∀ k x, (c.replace l).1.objects.get? k = some x ↔ x ∈ l.items ∧ key x = k) ∧
    (c.replace l).1.version = l.version.getD "" ∧
    (c.replace l).1.replace l = ((c.replace l).1, []) := by
  refine ⟨calls_replace distinct c, fun k x => get?_replace_eq_some_iff distinct, rfl, ?_⟩
  refine Prod.ext (replace_fst_eq l _ c) ?_
  rw [calls_replace distinct, missing_replace, List.map_nil, List.append_nil,
    List.flatMap_eq_nil_iff]
  exact fun x hx => news_replace distinct hx

theorem replace_exact_sample :
    ∃ l : Listing Pod, ∃ c : Collection Pod, (l.items.map key).Nodup ∧
      c.objects.keys = [⟨"default", "a"⟩, ⟨"default", "b"⟩, ⟨"default", "d"⟩] ∧
      (c.replace l).2 = [.add (.sample "c" "7" "Running"),
        .update (.sample "b" "1" "Running") (.sample "b" "6" "Running"),
        .delete (.sample "d" "1" "Running") true] ∧
      (c.replace l).1.version = "7" ∧ (c.replace l).1.replace l = ((c.replace l).1, []) := by
  let old : Listing Pod :=
    ⟨some "5", [.sample "a" "1" "Running", .sample "b" "1" "Running", .sample "d" "1" "Running"]⟩
  let l : Listing Pod :=
    ⟨some "7", [.sample "c" "7" "Running", .sample "b" "6" "Running", .sample "a" "1" "Running"]⟩
  have distinct : (l.items.map key).Nodup := by decide
  obtain ⟨hcalls, -, hversion, hagain⟩ := replace_exact distinct (Collection.empty.replace old).1
  exact ⟨l, (Collection.empty.replace old).1, distinct, rfl, hcalls, hversion, hagain⟩

end Collection

end BufferLedger
