import BufferLedger.Proofs.FiniteNumbers
import BufferLedger.Proofs.MachineDecoding

/-!
# Writing a machine and reading it back

A record that is written field by field is read back as it was if each of its fields is
(`Json.asRecord_of_fills`), and what holds of all values that are read from the numbers of a
document holds of the records made from them (`Json.yields_asRecord`). So a machine with finite
amounts of CPU survives being written and read, and every machine that has been read from a
document is one (`VirtualMachine.survives_writing`).
-/

namespace BufferLedger

open Json Text

variable {ε σ α : Type}

namespace Json

/-! ## Records that are written -/

def given : List (Field ε σ) → List (Option Json) → List (String × Json)
  | f :: fields, some j :: values => (f.name, j) :: given fields values
  | _ :: fields, none :: values => given fields values
  | _, _ => []

/-- The values that are given make the one record out of the other. -/
inductive Fills : List (Field ε σ) → List (Option Json) → σ → σ → Prop
  | nil {s} : Fills [] [] s s
  | given {f : Field ε σ} {j fields values s s' last} : f.read j s = .ok s' →
      Fills fields values s' last → Fills (f :: fields) (some j :: values) s last
  | missing {f : Field ε σ} {fields values s last} : f.required = false →
      Fills fields values s last → Fills (f :: fields) (none :: values) s last

section Records

variable {all fields : List (Field ε σ)} {values : List (Option Json)} {s s' start : σ}

theorem readFields_fills (distinct : (all.map (·.name)).Nodup) (h : Fills fields values s s')
    (hsuffix : fields <:+ all) {seen : List String} (hseen : ∀ f ∈ fields, f.name ∉ seen) :
    ∃ seen', readFields all true ((given fields values).map fun e => (some e.1, e.2)) seen s =
        .ok (seen', s') ∧ seen ⊆ seen' ∧ ∀ f ∈ fields, f.required = true → f.name ∈ seen' := by
  -- The fields that are still to come are the last ones of the record, and none has been seen.
  induction h generalizing seen with
  | nil => exact ⟨seen, rfl, fun _ hx => hx, by simp⟩
  | @given f j fields values s t s' hread hrest ih =>
    obtain ⟨hhead, htail⟩ := List.forall_mem_cons.1 hseen
    have hnames : ((f :: fields).map (·.name)).Nodup := distinct.sublist (hsuffix.sublist.map _)
    have hnext : ∀ g ∈ fields, g.name ∉ f.name :: seen := by
      intro g hg
      have hother : g.name ≠ f.name := by
        intro hsame
        exact (List.nodup_cons.1 hnames).1 (List.mem_map.2 ⟨g, hg, hsame⟩)
      simp [hother, htail g hg]
    obtain ⟨seen', hreads, hsub, hrequired⟩ := ih ((List.suffix_cons f fields).trans hsuffix) hnext
    refine ⟨seen', ?_, fun x hx => hsub (List.mem_cons_of_mem _ hx), ?_⟩
    · have hmem : f ∈ all := hsuffix.subset (List.mem_cons_self ..)
      rw [given, List.map_cons, readFields_field distinct hmem hhead, hread]
      exact hreads
    · exact List.forall_mem_cons.2 ⟨fun _ => hsub (List.mem_cons_self ..), hrequired⟩
  | @missing f fields values s s' hfree hrest ih =>
    obtain ⟨seen', hreads, hsub, hrequired⟩ :=
      ih ((List.suffix_cons f fields).trans hsuffix) (List.forall_mem_cons.1 hseen).2
    refine ⟨seen', hreads, hsub, List.forall_mem_cons.2 ⟨fun hmust => ?_, hrequired⟩⟩
    rw [hfree] at hmust
    cases hmust

theorem asRecord_of_fills (values : List (Option Json)) (distinct : (fields.map (·.name)).Nodup)
    (h : Fills fields values start s) :
    asRecord fields start (.objectOf (given fields values)) = .ok s := by
  have hnone : ∀ f ∈ fields, f.name ∉ ([] : List String) := by simp
  obtain ⟨seen, hreads, -, hrequired⟩ := readFields_fills distinct h (List.suffix_refl _) hnone
  obtain ⟨u, hcomplete⟩ : Succeeds (complain fields seen : Decoded ε Unit) :=
    complain_succeeds.2 hrequired
  simp only [asRecord, objectOf, asObject, hreads]
  simp [bind, Except.bind, readEnd, liftFault, Except.mapError, hcomplete, pure, Except.pure]

theorem read_optional {name : String} {decode : Json → Decoded ε α} {put : Option α → σ → σ}
    {j : Json} {o : Option α} (h : nullable decode j = .ok o) :
    (Field.optional name decode put).read j s = .ok (put o s) := by
  simp [Field.optional, h, bind, Except.bind, pure, Except.pure]

theorem read_mandatory {name : String} {decode : Json → Decoded ε α} {put : α → σ → σ}
    {j : Json} {a : α} (h : decode j = .ok a) :
    (Field.mandatory name decode put).read j s = .ok (put a s) := by
  simp [Field.mandatory, h, bind, Except.bind, pure, Except.pure]

end Records

/-! ## Values that are written -/

/-- Where the value may be missing or null it is read back. -/
def Restores (encode : α → Json) (decode : Json → Decoded ε α) (a : α) : Prop :=
  nullable decode (encode a) = .ok (some a)

theorem nullable_encodeOption {encode : α → Json} {decode : Json → Decoded ε α} {o : Option α}
    (h : ∀ a ∈ o, Restores encode decode a) : nullable decode (encodeOption encode o) = .ok o := by
  cases o with
  | none => rfl
  | some a => exact h a rfl

theorem restores_of_ne_null {encode : α → Json} {decode : Json → Decoded ε α} {a : α}
    (hnull : encode a ≠ .null) (h : decode (encode a) = .ok a) : Restores encode decode a := by
  have hsome : nullable decode (encode a) = some <$> decode (encode a) := by
    unfold nullable
    split
    · exact absurd ‹_› hnull
    · rfl
  rw [Restores, hsome, h]
  rfl

/-! ## Values that are read -/

/-- What is read from a document has the property. -/
def Yields (decode : Json → Decoded ε α) (P : α → Prop) : Prop :=
  ∀ j a, j.finite = true → decode j = .ok a → P a

def Field.Keeps (P : σ → Prop) (f : Field ε σ) : Prop :=
  ∀ j s s', j.finite = true → P s → f.read j s = .ok s' → P s'

section Kept

variable {fields : List (Field ε σ)} {start : σ} {P : σ → Prop} {Q : α → Prop}
  {decode : Json → Decoded ε α}

theorem yields_nullable (h : Yields decode Q) : Yields (nullable decode) (∀ a ∈ ·, Q a) := by
  intro j o hj hread
  unfold nullable at hread
  split at hread
  · cases hread
    simp
  · rw [map_eq_pure_bind] at hread
    obtain ⟨a, hvalue, hsome⟩ := ok_of_bind hread
    cases hsome
    simpa using h j a hj hvalue

theorem keeps_optional {name : String} {put : Option α → σ → σ} (h : Yields decode Q)
    (hput : ∀ o s, (∀ a ∈ o, Q a) → P s → P (put o s)) :
    (Field.optional name decode put).Keeps P := by
  intro j s s' hj hs hread
  obtain ⟨o, hvalue, hlast⟩ := ok_of_bind hread
  cases hlast
  exact hput o s (yields_nullable h j o hj hvalue) hs

theorem keeps_mandatory {name : String} {put : α → σ → σ} (hput : ∀ a s, P s → P (put a s)) :
    (Field.mandatory name decode put).Keeps P := by
  intro j s s' _ hs hread
  obtain ⟨a, -, hlast⟩ := ok_of_bind hread
  cases hlast
  exact hput a s hs

theorem keeps_other {name : String} {put : Option α → σ → σ} (hput : ∀ o s, P s → P (put o s)) :
    (Field.optional name decode put).Keeps P := by
  intro j s s' _ hs hread
  obtain ⟨o, -, hlast⟩ := ok_of_bind hread
  cases hlast
  exact hput o s hs

theorem readFields_keeps (hkeeps : ∀ f ∈ fields, f.Keeps P) {once : Bool}
    {entries : List (Option String × Json)} (hentries : ∀ e ∈ entries, e.2.finite = true)
    {seen seen' : List String} {s s' : σ} (hs : P s)
    (h : readFields fields once entries seen s = .ok (seen', s')) : P s' := by
  induction entries generalizing seen s with
  | nil =>
    cases h
    exact hs
  | cons e rest ih =>
    obtain ⟨he, hrest⟩ := List.forall_mem_cons.1 hentries
    obtain ⟨_ | name, j⟩ := e
    · cases h
    · simp only [readFields] at h
      split at h
      · obtain ⟨-, -, h⟩ := ok_of_bind h
        exact ih hrest hs h
      · rename_i f hfind
        split at h
        · cases h
        · obtain ⟨t, hread, h⟩ := ok_of_bind h
          exact ih hrest (hkeeps f (List.mem_of_find?_eq_some hfind) j s t he hs hread) h

theorem readItems_keeps (hkeeps : ∀ f ∈ fields, f.Keeps P) {items : List Json}
    (hitems : ∀ j ∈ items, j.finite = true) {cut : Option Flaw} {s s' : σ} (hs : P s)
    (h : readItems fields items cut s = .ok s') : P s' := by
  induction fields generalizing items s with
  | nil =>
    cases items with
    | nil =>
      obtain ⟨-, -, h⟩ := ok_of_bind h
      cases h
      exact hs
    | cons j rest => cases h
  | cons f fields ih =>
    obtain ⟨hf, hfields⟩ := List.forall_mem_cons.1 hkeeps
    cases items with
    | nil =>
      obtain ⟨-, -, h⟩ := ok_of_bind h
      split at h
      · cases h
      · cases h
        exact hs
    | cons j rest =>
      obtain ⟨hj, hrest⟩ := List.forall_mem_cons.1 hitems
      obtain ⟨t, hread, h⟩ := ok_of_bind h
      exact ih hfields hrest (hf j s t hj hs hread) h

theorem yields_asRecord (hkeeps : ∀ f ∈ fields, f.Keeps P) (hstart : P start) :
    Yields (asRecord fields start) P := by
  intro j s hj h
  cases j with
  | array items cut => exact readItems_keeps hkeeps (finiteItems_iff.1 hj) hstart h
  | object entries cut =>
    obtain ⟨⟨seen, t⟩, hread, h⟩ := ok_of_bind h
    obtain ⟨-, -, h⟩ := ok_of_bind h
    obtain ⟨-, -, h⟩ := ok_of_bind h
    cases h
    exact readFields_keeps hkeeps (finiteEntries_iff.1 hj) hstart hread
  | _ => cases h

end Kept

end Json

/-! ## Leaves -/

def CpuAmount.finite : CpuAmount → Bool
  | .text _ => true
  | .cores x => x.isFinite

theorem CpuAmount.restores {a : CpuAmount} (h : a.finite = true) :
    Restores encode decode a := by
  cases a with
  | text s => rfl
  | cores x =>
    have hencode : encode (.cores x) = .float x := if_pos h
    rw [Restores, hencode]
    rfl

theorem restores_count {n : Nat} (h : n ≤ word32Max) :
    Restores (fun n : Nat => .whole n) (asWord32 : Json → Decoded Empty Nat) n := by
  have hread : (asWord32 (.whole n) : Decoded Empty Nat) = .ok n :=
    if_pos ⟨Int.natCast_nonneg n, Int.ofNat_le.2 h⟩
  rw [Restores]
  exact congrArg (some <$> ·) hread

theorem nullable_text (o : Option String) :
    (nullable asString (encodeOption .string o) : Decoded Empty (Option String)) = .ok o :=
  nullable_encodeOption fun _ _ => rfl

theorem yields_amount : Yields CpuAmount.decode (·.finite = true) := by
  intro j a hj h
  cases j with
  | string text =>
    cases h
    rfl
  | whole n =>
    cases h
    exact Binary64.isFinite_ofInt (by simpa [finite] using hj)
  | float x =>
    cases h
    exact hj
  | _ =>
    obtain ⟨-, -, h⟩ := ok_of_bind h
    cases h

theorem yields_count : Yields (asWord32 : Json → Decoded Empty Nat) (· ≤ word32Max) := by
  intro j n _ h
  cases j with
  | whole =>
    simp only [asWord32] at h
    split at h
    · cases h
      omega
    · cases h
  | _ => cases h

/-! ## Machines -/

structure AmountRange.Each (P : α → Prop) (r : AmountRange α) : Prop where
  min : ∀ a ∈ r.min, P a
  max : ∀ a ∈ r.max, P a
  use : ∀ a ∈ r.use, P a

theorem AmountRange.restores {P : α → Prop} {write : α → Json} {read : Json → Decoded Empty α}
    (h : ∀ a, P a → Restores write read a) {r : AmountRange α} (hr : r.Each P) :
    Restores (encode write) (decode read) r := by
  have part {o : Option α} (ho : ∀ a ∈ o, P a) : nullable read (encodeOption write o) = .ok o :=
    nullable_encodeOption fun a ha => h a (ho a ha)
  refine restores_of_ne_null (by simp [encode, objectOf]) ?_
  exact asRecord_of_fills
    [some (encodeOption write r.min), some (encodeOption write r.max),
     some (encodeOption write r.use)]
    (by simp [Field.optional])
    (.given (read_optional (part hr.min)) (.given (read_optional (part hr.max))
      (.given (read_optional (part hr.use)) .nil)))

theorem AmountRange.yields {P : α → Prop} {read : Json → Decoded Empty α} (h : Yields read P) :
    Yields (decode read) (Each P) := by
  refine yields_asRecord ?_ ⟨by simp [empty], by simp [empty], by simp [empty]⟩
  simp only [List.forall_mem_cons]
  refine ⟨keeps_optional h ?_, keeps_optional h ?_, keeps_optional h ?_, by simp⟩
  · exact fun o r ho hr => { hr with min := ho }
  · exact fun o r ho hr => { hr with max := ho }
  · exact fun o r ho hr => { hr with use := ho }

structure Guest.Writable (g : Guest) : Prop where
  cpus : ∀ r ∈ g.cpus, r.Each (·.finite = true)
  slots : ∀ r ∈ g.memorySlots, r.Each (· ≤ word32Max)

theorem Guest.restores {g : Guest} (h : g.Writable) : Restores encode decode g := by
  refine restores_of_ne_null (by simp [encode, objectOf]) ?_
  have hcpus : nullable (AmountRange.decode CpuAmount.decode)
      (encodeOption (AmountRange.encode CpuAmount.encode) g.cpus) = .ok g.cpus :=
    nullable_encodeOption fun r hr =>
      AmountRange.restores (fun _ ha => CpuAmount.restores ha) (h.cpus r hr)
  have hslots : nullable (AmountRange.decode asWord32)
      (encodeOption (AmountRange.encode fun n : Nat => .whole n) g.memorySlots) =
        .ok g.memorySlots :=
    nullable_encodeOption fun r hr =>
      AmountRange.restores (fun _ ha => restores_count ha) (h.slots r hr)
  exact asRecord_of_fills [some _, some _, some _] (by simp [Field.optional])
    (.given (read_optional hcpus) (.given (read_optional hslots)
      (.given (read_optional (nullable_text _)) .nil)))

theorem Guest.yields : Yields decode Writable := by
  refine yields_asRecord ?_ ⟨by simp [empty], by simp [empty]⟩
  simp only [List.forall_mem_cons]
  refine ⟨keeps_optional (AmountRange.yields yields_amount) ?_,
    keeps_optional (AmountRange.yields yields_count) ?_, ?_, by simp⟩
  · exact fun o g ho hg => { hg with cpus := ho }
  · exact fun o g ho hg => { hg with slots := ho }
  · exact keeps_other fun _ _ hg => ⟨hg.cpus, hg.slots⟩

def MachineSpec.Writable (s : MachineSpec) : Prop :=
  ∀ g ∈ s.guest, g.Writable

theorem MachineSpec.restores {s : MachineSpec} (h : s.Writable) : Restores encode decode s := by
  refine restores_of_ne_null (by simp [encode, objectOf]) ?_
  have hguest : nullable Guest.decode (encodeOption Guest.encode s.guest) = .ok s.guest :=
    nullable_encodeOption fun g hg => Guest.restores (h g hg)
  exact asRecord_of_fills [some _] (by simp) (.given (read_optional hguest) .nil)

theorem MachineSpec.yields : Yields decode Writable := by
  refine yields_asRecord ?_ (by simp [Writable])
  simp only [List.forall_mem_singleton]
  exact keeps_optional Guest.yields fun o _ ho _ => ho

theorem MachineStatus.restores (s : MachineStatus) : Restores encode decode s := by
  refine restores_of_ne_null (by simp [encode, objectOf]) ?_
  exact asRecord_of_fills [some _] (by simp) (.given (read_optional (nullable_text _)) .nil)

namespace VirtualMachine

def Writable (v : VirtualMachine) : Prop :=
  ∀ s ∈ v.spec, s.Writable

theorem decode_encode {v : VirtualMachine} (h : v.Writable)
    (hmetadata : Metadata.decode v.metadata.encode = .ok v.metadata) : decode v.encode = .ok v := by
  rcases v with ⟨metadata, _ | spec, _ | status⟩
  · exact asRecord_of_fills [some _, none, none] (by simp [Field.mandatory, Field.optional])
      (.given (read_mandatory hmetadata) (.missing rfl (.missing rfl .nil)))
  · have hstatus := MachineStatus.restores status
    exact asRecord_of_fills [some _, none, some _] (by simp [Field.mandatory, Field.optional])
      (.given (read_mandatory hmetadata) (.missing rfl (.given (read_optional hstatus) .nil)))
  · have hspec := MachineSpec.restores (h spec rfl)
    exact asRecord_of_fills [some _, some _, none] (by simp [Field.mandatory, Field.optional])
      (.given (read_mandatory hmetadata) (.given (read_optional hspec) (.missing rfl .nil)))
  · have hspec := MachineSpec.restores (h spec rfl)
    have hstatus := MachineStatus.restores status
    exact asRecord_of_fills [some _, some _, some _] (by simp [Field.mandatory, Field.optional])
      (.given (read_mandatory hmetadata) (.given (read_optional hspec)
        (.given (read_optional hstatus) .nil)))

theorem yields : Yields decode Writable := by
  refine yields_asRecord ?_ (by simp [Writable])
  simp only [List.forall_mem_cons]
  refine ⟨keeps_mandatory fun _ _ hv => hv, keeps_optional MachineSpec.yields fun _ _ ho _ => ho,
    ?_, by simp⟩
  exact keeps_other fun _ _ hv => hv

/-- Once it has been written and read again, the machine tells what it told before. -/
def Survives (v : VirtualMachine) : Prop :=
  ∃ v', decode v.encode = .ok v' ∧ ClusterObject.key v' = ClusterObject.key v ∧
    ClusterObject.version v' = ClusterObject.version v ∧ v'.podName? = v.podName? ∧
    v'.scalable = v.scalable ∧ v'.profile = v.profile

/-- A machine with finite amounts of CPU is read back as it was written, if its metadata is. So any
machine survives that was read from a document, whose numbers are finite, or from a text. -/
theorem survives_writing :
    (∀ v : VirtualMachine, v.Writable → Metadata.decode v.metadata.encode = .ok v.metadata →
      decode v.encode = .ok v) ∧
    (∀ (j : Json) (v : VirtualMachine), j.finite = true → decode j = .ok v →
      Metadata.decode v.metadata.encode = .ok v.metadata → v.Survives) ∧
    ∀ (text : String) (v : VirtualMachine), decodeText decode text = .ok v →
      Metadata.decode v.metadata.encode = .ok v.metadata → v.Survives := by
  have hsurvives (j : Json) (v : VirtualMachine) (hj : j.finite = true) (hread : decode j = .ok v)
      (hmetadata : Metadata.decode v.metadata.encode = .ok v.metadata) : v.Survives :=
    ⟨v, decode_encode (yields j v hj hread) hmetadata, rfl, rfl, rfl, rfl, rfl⟩
  refine ⟨fun v h hmetadata => decode_encode h hmetadata, hsurvives, ?_⟩
  intro text v htext hmetadata
  obtain ⟨w, hread, hend⟩ := ok_of_bind htext
  split at hend
  · cases hend
  · cases hend
    exact hsurvives _ v (finite_read text) hread hmetadata

def sampleArray : Json :=
  .arrayOf
    [.objectOf
       [("name", .string "vm"), ("namespace", .string "default"), ("resourceVersion", .string "5"),
        ("labels", .objectOf [(scalingLabel, .string "true")])],
     .arrayOf [.arrayOf
       [.arrayOf [.whole 1, .string "4", .float (.ofInt 2)],
        .arrayOf [.whole 1, .whole 8, .whole 2], .string "1Gi"]],
     .arrayOf [.string "pod"]]

def sampleText : String :=
  "[\x7b\"name\": \"vm\"\x7d, [[[1.5]]], [\"pod\"]]"

theorem survives_writing_sample :
    (∃ v v', decode sampleArray = .ok v ∧ v.Writable ∧
      Metadata.decode v.metadata.encode = .ok v.metadata ∧ decode v.encode = .ok v ∧
      decode v.encode = .ok v' ∧ ClusterObject.key v' = ⟨"default", "vm"⟩ ∧
      ClusterObject.version v' = some "5" ∧ v'.podName? = some "pod" ∧ v'.scalable = true ∧
      v'.profile = .ok
        ⟨"vm", "default", ⟨1000, 4000, 2000⟩, ⟨1, 8, 2⟩, 1073741824, true⟩) ∧
    ∃ v, decodeText decode sampleText = .ok v ∧ v.podName? = some "pod" ∧ v.Survives := by
  refine ⟨?_, ?_⟩
  · obtain ⟨v, hread⟩ : ∃ v, decode sampleArray = .ok v := ⟨_, rfl⟩
    have hmetadata : Metadata.decode v.metadata.encode = .ok v.metadata := by
      cases hread
      rfl
    have hfinite : sampleArray.finite = true := rfl
    have hwritable := yields _ v hfinite hread
    have hsame := survives_writing.1 v hwritable hmetadata
    obtain ⟨v', hagain, hkey, hversion, hpod, hscalable, hprofile⟩ :=
      survives_writing.2.1 sampleArray v hfinite hread hmetadata
    refine ⟨v, v', hread, hwritable, hmetadata, hsame, hagain, hkey.trans ?_, hversion.trans ?_,
      hpod.trans ?_, hscalable.trans ?_, hprofile.trans ?_⟩
    all_goals
      cases hread
      rfl
  · obtain ⟨v, htext⟩ : ∃ v, decodeText decode sampleText = .ok v := ⟨_, rfl⟩
    refine ⟨v, htext, ?_, survives_writing.2.2 sampleText v htext ?_⟩
    all_goals
      cases htext
      rfl

end VirtualMachine

end BufferLedger
