import BufferLedger.Api.Answer
import BufferLedger.Proofs.RecordDecoding
import BufferLedger.Scaling.Extract

/-!
# Which machines can be read

Along the path to each leaf of a machine's object this says which values the leaf may have: an
amount of CPU is any text or number, but slots are counted in thirty-two bits and the remaining
leaves are texts. One leaf that does not fit keeps a whole list from being read.
-/

namespace BufferLedger

namespace Json

def IsAmount (x : Json) : Prop :=
  x = .null ∨ (∃ s, x = .string s) ∨ (∃ n, x = .whole n) ∨ ∃ r, x = .float r

def IsCount (x : Json) : Prop :=
  x = .null ∨ ∃ n, x = .whole n ∧ 0 ≤ n ∧ n ≤ Text.word32Max

def IsText (x : Json) : Prop :=
  x = .null ∨ ∃ s, x = .string s

theorem amount_succeeds {x : Json} : Succeeds (nullable CpuAmount.decode x) ↔ IsAmount x := by
  rw [nullable_succeeds, IsAmount]
  apply or_congr_right
  cases x <;> simp [CpuAmount.decode, succeeds_bind]

theorem count_succeeds {x : Json} :
    Succeeds (nullable asWord32 x : Decoded Empty (Option Nat)) ↔ IsCount x := by
  rw [nullable_succeeds, IsCount]
  apply or_congr_right
  cases x with
  | whole n =>
    simp only [asWord32]
    split
    · rename_i hn
      simpa using hn
    · rename_i hn
      simpa using hn
  | _ => simp [asWord32]

theorem text_succeeds {x : Json} :
    Succeeds (nullable asString x : Decoded Empty (Option String)) ↔ IsText x := by
  rw [nullable_succeeds, IsText]
  apply or_congr_right
  cases x <;> simp [asString]

end Json

open Json

/-! ## Machines -/

theorem AmountRange.succeeds {α : Type} {amount : Json → Decoded Empty α} {x : Json}
    (h : Container ["min", "max", "use"] x) :
    Succeeds (nullable (AmountRange.decode amount) x) ↔
      ∀ name ∈ ["min", "max", "use"], ∀ y, x.field? name = some y →
        Succeeds (nullable amount y) := by
  refine Iff.trans (container_succeeds (by rfl) (by decide) (by simp [uniform_optional])
    (by simp [Field.optional]) _ h) ?_
  simp only [List.forall_mem_cons, suits_optional]
  simp [Field.optional]

theorem AmountRange.succeeds_at {α : Type} {amount : Json → Decoded Empty α} {fits : Json → Prop}
    {j : Json} {path : List String} (hfits : ∀ {x}, Succeeds (nullable amount x) ↔ fits x)
    (h : ∀ x, j.at? path = some x → Container ["min", "max", "use"] x) :
    (∀ x, j.at? path = some x → Succeeds (nullable (AmountRange.decode amount) x)) ↔
      ∀ name ∈ ["min", "max", "use"], ∀ y, j.at? (path ++ [name]) = some y → fits y := by
  constructor
  · intro hall name hname
    rw [forall_at?_append]
    intro x hx y hy
    exact hfits.1 ((AmountRange.succeeds (h x hx)).1 (hall x hx) name hname y hy)
  · intro hall x hx
    refine (AmountRange.succeeds (h x hx)).2 fun name hname y hy => hfits.2 ?_
    exact (forall_at?_append path name).1 (hall name hname) x hx y hy

theorem Guest.succeeds {x : Json} (h : Container ["cpus", "memorySlots", "memorySlotSize"] x) :
    Succeeds (nullable Guest.decode x) ↔
      (∀ y, x.field? "cpus" = some y →
        Succeeds (nullable (AmountRange.decode CpuAmount.decode) y)) ∧
      (∀ y, x.field? "memorySlots" = some y →
        Succeeds (nullable (AmountRange.decode asWord32) y)) ∧
      ∀ y, x.field? "memorySlotSize" = some y → IsText y := by
  refine Iff.trans (container_succeeds (by rfl) (by decide) (by simp [uniform_optional])
    (by simp [Field.optional]) _ h) ?_
  simp only [List.forall_mem_cons, suits_optional, text_succeeds]
  simp [Field.optional]

theorem MachineSpec.succeeds {x : Json} (h : Container ["guest"] x) :
    Succeeds (nullable MachineSpec.decode x) ↔
      ∀ y, x.field? "guest" = some y → Succeeds (nullable Guest.decode y) := by
  refine Iff.trans (container_succeeds (by rfl) (by decide) (by simp [uniform_optional])
    (by simp [Field.optional]) _ h) ?_
  simp only [List.forall_mem_singleton, suits_optional]
  rfl

theorem MachineStatus.succeeds {x : Json} (h : Container ["podName"] x) :
    Succeeds (nullable MachineStatus.decode x) ↔
      ∀ y, x.field? "podName" = some y → IsText y := by
  refine Iff.trans (container_succeeds (by rfl) (by decide) (by simp [uniform_optional])
    (by simp [Field.optional]) _ h) ?_
  simp only [List.forall_mem_singleton, suits_optional, text_succeeds]
  rfl

namespace VirtualMachine

/-- A machine's object as far as its leaves do not matter: its metadata can be read and the
containers on the way to the leaves are objects or null. -/
structure Framed (j : Json) : Prop where
  object : IsObject ["metadata", "spec", "status"] j
  metadata : ∃ m, j.field? "metadata" = some m ∧ Succeeds (Metadata.decode m)
  spec : ∀ x, j.at? ["spec"] = some x → Container ["guest"] x
  guest : ∀ x, j.at? ["spec", "guest"] = some x →
    Container ["cpus", "memorySlots", "memorySlotSize"] x
  cpus : ∀ x, j.at? ["spec", "guest", "cpus"] = some x → Container ["min", "max", "use"] x
  slots : ∀ x, j.at? ["spec", "guest", "memorySlots"] = some x → Container ["min", "max", "use"] x
  status : ∀ x, j.at? ["status"] = some x → Container ["podName"] x

/-- Amounts of CPU are texts or numbers, slots are counts, and the slot size and the name of the
pod are texts, as far as they are there. -/
structure LeavesFit (j : Json) : Prop where
  cpus : ∀ name ∈ ["min", "max", "use"], ∀ x, j.at? ["spec", "guest", "cpus", name] = some x →
    IsAmount x
  slots : ∀ name ∈ ["min", "max", "use"], ∀ x,
    j.at? ["spec", "guest", "memorySlots", name] = some x → IsCount x
  slotSize : ∀ x, j.at? ["spec", "guest", "memorySlotSize"] = some x → IsText x
  podName : ∀ x, j.at? ["status", "podName"] = some x → IsText x

variable {j : Json}

theorem Framed.decode_succeeds (h : Framed j) :
    Succeeds (decode j) ↔
      (∀ x, j.at? ["spec"] = some x → Succeeds (nullable MachineSpec.decode x)) ∧
      ∀ x, j.at? ["status"] = some x → Succeeds (nullable MachineStatus.decode x) := by
  simp only [at?_singleton]
  rw [decode, asRecord_of_isObject h.object]
  refine Iff.trans (asObject_succeeds (by rfl) (by decide)
    (by simp [uniform_mandatory, uniform_optional]) _ h.object) ?_
  simp only [List.forall_mem_cons, suits_mandatory, suits_optional]
  simpa [Field.mandatory, Field.optional] using fun _ _ => h.metadata

theorem Framed.spec_succeeds (h : Framed j) :
    (∀ x, j.at? ["spec"] = some x → Succeeds (nullable MachineSpec.decode x)) ↔
      ∀ x, j.at? ["spec", "guest"] = some x → Succeeds (nullable Guest.decode x) :=
  (forall₂_congr fun x hx => MachineSpec.succeeds (h.spec x hx)).trans
    (forall_at?_append ["spec"] "guest").symm

theorem Framed.guest_succeeds (h : Framed j) :
    (∀ x, j.at? ["spec", "guest"] = some x → Succeeds (nullable Guest.decode x)) ↔
      (∀ x, j.at? ["spec", "guest", "cpus"] = some x →
        Succeeds (nullable (AmountRange.decode CpuAmount.decode) x)) ∧
      (∀ x, j.at? ["spec", "guest", "memorySlots"] = some x →
        Succeeds (nullable (AmountRange.decode asWord32) x)) ∧
      ∀ x, j.at? ["spec", "guest", "memorySlotSize"] = some x → IsText x := by
  have hcpus := forall_at?_append (j := j)
    (P := fun x => Succeeds (nullable (AmountRange.decode CpuAmount.decode) x)) ["spec", "guest"]
    "cpus"
  have hslots := forall_at?_append (j := j)
    (P := fun x => Succeeds (nullable (AmountRange.decode asWord32) x)) ["spec", "guest"]
    "memorySlots"
  have hsize := forall_at?_append (j := j) (P := IsText) ["spec", "guest"] "memorySlotSize"
  rw [forall₂_congr fun x hx => Guest.succeeds (h.guest x hx), forall₂_and, forall₂_and]
  exact and_congr hcpus.symm (and_congr hslots.symm hsize.symm)

theorem Framed.status_succeeds (h : Framed j) :
    (∀ x, j.at? ["status"] = some x → Succeeds (nullable MachineStatus.decode x)) ↔
      ∀ x, j.at? ["status", "podName"] = some x → IsText x :=
  (forall₂_congr fun x hx => MachineStatus.succeeds (h.status x hx)).trans
    (forall_at?_append ["status"] "podName").symm

theorem Framed.decode_succeeds_iff (h : Framed j) : Succeeds (decode j) ↔ LeavesFit j := by
  rw [h.decode_succeeds, h.spec_succeeds, h.guest_succeeds, h.status_succeeds,
    AmountRange.succeeds_at amount_succeeds h.cpus, AmountRange.succeeds_at count_succeeds h.slots]
  constructor
  · rintro ⟨⟨hcpus, hslots, hsize⟩, hpod⟩
    exact ⟨hcpus, hslots, hsize, hpod⟩
  · rintro ⟨hcpus, hslots, hsize, hpod⟩
    exact ⟨⟨hcpus, hslots, hsize⟩, hpod⟩

end VirtualMachine

/-! ## Lists and lines of a watch -/

namespace Api

section Containers

variable {α : Type} [ClusterObject α]

theorem decodeItems_succeeds {items : List Json} :
    Succeeds (decodeItems items : Decoded Empty (List α)) ↔
      ∀ j ∈ items, Succeeds (ClusterObject.decode j : Decoded Empty α) := by
  induction items with
  | nil => simp [decodeItems]
  | cons j rest ih =>
    simp only [decodeItems, succeeds_bind, succeeds_pure, and_true, List.forall_mem_cons, ← ih]
    exact exists_and_right

theorem decodeListing_succeeds {j : Json} {items : List Json}
    (h : IsObject ["metadata", "items"] j)
    (hversion : ∃ m, j.field? "metadata" = some m ∧ Succeeds (listVersion m))
    (hitems : j.field? "items" = some (.arrayOf items)) :
    Succeeds (decodeListing j : Decoded Empty (Listing α)) ↔
      ∀ x ∈ items, Succeeds (ClusterObject.decode x : Decoded Empty α) := by
  have hasItems : Succeeds (asItems (.arrayOf items) : Decoded Empty (List α)) ↔
      ∀ j ∈ items, Succeeds (ClusterObject.decode j : Decoded Empty α) := by
    rw [← decodeItems_succeeds, asItems, succeeds_bind]
    simp only [readEnd, liftFault, Except.mapError, succeeds_bind, succeeds_pure, and_true]
    simp [Succeeds]
  refine Iff.trans (asObject_succeeds (by rfl) (by decide) (by simp [uniform_mandatory]) _ h) ?_
  simp only [List.forall_mem_cons, suits_mandatory]
  simp [Field.mandatory, hitems, hasItems, hversion]

def LineKind.tellsObject : LineKind → Bool
  | .added | .modified | .deleted => true
  | .bookmark | .error => false

theorem decodeContent_succeeds {kind : LineKind} {j : Json} (hkind : kind.tellsObject = true) :
    Succeeds (decodeContent kind j : Decoded Empty (Line α)) ↔
      Succeeds (ClusterObject.decode j : Decoded Empty α) := by
  cases kind with
  | added | modified | deleted =>
    simp only [decodeContent, succeeds_bind, succeeds_pure, and_true]
    rfl
  | bookmark | error => cases hkind

theorem decodeLine_succeeds {name : String} {kind : LineKind} {j : Json}
    (hname : LineKind.ofText? name = some kind) (hkind : kind.tellsObject = true) :
    Succeeds (decodeLine (.objectOf [("type", .string name), ("object", j)]) :
        Decoded Empty (Line α)) ↔
      Succeeds (ClusterObject.decode j : Decoded Empty α) := by
  rw [← decodeContent_succeeds hkind]
  have hline : decodeLine (.objectOf [("type", .string name), ("object", j)]) =
      (decodeContent kind j : Decoded Empty (Line α)) := by
    cases hcontent : (decodeContent kind j : Decoded Empty (Line α)) <;>
      simp [decodeLine, objectOf, readLine, asKind, LineKind.ofText, hname, hcontent, readEnd,
        liftFault, Except.mapError, bind, Except.bind, pure, Except.pure]
  rw [hline]

end Containers

end Api

namespace VirtualMachine

/-- Each of the objects can be read just if its leaves fit, a line of a watch that tells of it just
then as well, and a list of them all just if the leaves of all fit. -/
theorem read_iff_leavesFit (items : List Json) (framed : ∀ x ∈ items, Framed x) :
    (∀ x ∈ items, (Succeeds (decode x) ↔ LeavesFit x)) ∧
    (∀ x ∈ items, ∀ name kind, Api.LineKind.ofText? name = some kind → kind.tellsObject = true →
      (Succeeds (Api.decodeLine (.objectOf [("type", .string name), ("object", x)]) :
          Decoded Empty (Api.Line VirtualMachine)) ↔ LeavesFit x)) ∧
    ∀ j, IsObject ["metadata", "items"] j →
      (∃ m, j.field? "metadata" = some m ∧ Succeeds (Api.listVersion m)) →
      j.field? "items" = some (.arrayOf items) →
      (Succeeds (Api.decodeListing j : Decoded Empty (Listing VirtualMachine)) ↔
        ∀ x ∈ items, LeavesFit x) := by
  have hdecode : ∀ x ∈ items, (Succeeds (decode x) ↔ LeavesFit x) :=
    fun x hx => (framed x hx).decode_succeeds_iff
  refine ⟨hdecode, ?_, ?_⟩
  · intro x hx name kind hname hkind
    rw [Api.decodeLine_succeeds hname hkind]
    exact hdecode x hx
  · intro j h hversion hitems
    rw [Api.decodeListing_succeeds h hversion hitems]
    exact forall₂_congr hdecode

def sampleObject (slots : Json) : Json :=
  .objectOf
    [("metadata", .objectOf [("name", .string "vm")]),
     ("spec", .objectOf [("guest", .objectOf
        [("cpus", .objectOf [("min", .whole 1), ("max", .string "four"), ("use", .whole 1)]),
         ("memorySlots", .objectOf [("min", .whole 1), ("max", slots), ("use", .whole 1)]),
         ("memorySlotSize", .string "1Gi")])]),
     ("status", .objectOf [("podName", .string "pod")])]

def sampleList (slots : Json) : Json :=
  .objectOf
    [("metadata", .objectOf [("resourceVersion", .string "5")]),
     ("items", .arrayOf [sampleObject (.whole 4), sampleObject slots])]

theorem framed_sampleObject (slots : Json) : Framed (sampleObject slots) := by
  refine ⟨isObject_objectOf (by simp) (by simp), ⟨_, rfl, ⟨_, rfl⟩⟩, ?_, ?_, ?_, ?_, ?_⟩
  all_goals
    intro x hx
    cases hx
    exact .inr (isObject_objectOf (by simp) (by simp))

theorem leavesFit_sampleObject : LeavesFit (sampleObject (.whole 4)) := by
  refine ⟨?_, ?_, ?_, ?_⟩
  · intro name hname x hx
    simp only [List.mem_cons, List.not_mem_nil, or_false] at hname
    rcases hname with rfl | rfl | rfl
    · cases hx
      exact .inr (.inr (.inl ⟨_, rfl⟩))
    · cases hx
      exact .inr (.inl ⟨_, rfl⟩)
    · cases hx
      exact .inr (.inr (.inl ⟨_, rfl⟩))
  · intro name hname x hx
    simp only [List.mem_cons, List.not_mem_nil, or_false] at hname
    rcases hname with rfl | rfl | rfl
    all_goals
      cases hx
      exact .inr ⟨_, rfl, by decide, by decide⟩
  · intro x hx
    cases hx
    exact .inr ⟨_, rfl⟩
  · intro x hx
    cases hx
    exact .inr ⟨_, rfl⟩

theorem not_leavesFit_sampleObject (text : String) : ¬ LeavesFit (sampleObject (.string text)) := by
  intro h
  rcases h.slots "max" (by simp) (.string text) rfl with h | ⟨n, h, -⟩ <;> cases h

theorem read_sampleObject :
    (∃ v, decode (sampleObject (.whole 4)) = .ok v ∧
      v.profile = .error (.invalidQuantity "spec.guest.cpus.max" "four")) ∧
    ¬ Succeeds (decode (sampleObject (.string "eight"))) ∧
    ¬ Succeeds (Api.decodeListing (sampleList (.string "eight")) :
        Decoded Empty (Listing VirtualMachine)) ∧
    ¬ Succeeds (Api.decodeLine (.objectOf
        [("type", .string "MODIFIED"), ("object", sampleObject (.string "eight"))]) :
        Decoded Empty (Api.Line VirtualMachine)) := by
  obtain ⟨hobject, hline, hlist⟩ :=
    read_iff_leavesFit [sampleObject (.whole 4), sampleObject (.string "eight")]
      (by simp [framed_sampleObject])
  have hfail := not_leavesFit_sampleObject "eight"
  refine ⟨?_, ?_, ?_, ?_⟩
  · obtain ⟨v, hv⟩ := (hobject _ (List.mem_cons_self ..)).2 leavesFit_sampleObject
    refine ⟨v, hv, ?_⟩
    cases hv
    rfl
  · exact fun h => hfail ((hobject _ (by simp)).1 h)
  · have hframe : IsObject ["metadata", "items"] (sampleList (.string "eight")) :=
      isObject_objectOf (by simp) (by simp)
    have hall := hlist _ hframe ⟨_, rfl, ⟨_, rfl⟩⟩ rfl
    exact fun h => hfail (hall.1 h _ (by simp))
  · exact fun h => hfail ((hline _ (by simp) "MODIFIED" .modified rfl rfl).1 h)

/-- The text in place of a number is a mismatch, for the object and for the list with it. -/
theorem unreadable_list :
    Framed (sampleObject (.string "eight")) ∧
      decode (sampleObject (.string "eight")) = .error .mismatch ∧
      (Api.decodeListing (sampleList (.string "eight")) :
        Decoded Empty (Listing VirtualMachine)) = .error .mismatch :=
  ⟨framed_sampleObject _, rfl, rfl⟩

end VirtualMachine

end BufferLedger
