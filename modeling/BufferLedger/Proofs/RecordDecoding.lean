import Mathlib.Data.List.Nodup
import BufferLedger.Json.Record

/-!
# Which records can be read

An object whose fields come once, and whose other fields can be passed over, is read just if each
field suits what stands under its name (`Json.asObject_succeeds`). A path of names leads from an
object to the values inside it.
-/

namespace BufferLedger

open Json

def Succeeds {ε α : Type} (r : Except ε α) : Prop :=
  ∃ a, r = .ok a

section Succeeds

variable {ε α β : Type}

@[simp] theorem succeeds_ok (a : α) : Succeeds (.ok a : Except ε α) :=
  ⟨a, rfl⟩

@[simp] theorem succeeds_pure (a : α) : Succeeds (pure a : Except ε α) :=
  ⟨a, rfl⟩

@[simp] theorem not_succeeds_error (e : ε) : ¬ Succeeds (.error e : Except ε α) := by
  rintro ⟨a, h⟩
  cases h

theorem ok_of_bind {x : Except ε α} {f : α → Except ε β} {b : β} (h : x >>= f = .ok b) :
    ∃ a, x = .ok a ∧ f a = .ok b := by
  cases x with
  | error e => cases h
  | ok a => exact ⟨a, rfl, h⟩

theorem bind_eq_ok_iff {x : Except ε α} {f : α → Except ε β} {b : β} :
    x >>= f = .ok b ↔ ∃ a, x = .ok a ∧ f a = .ok b := by
  refine ⟨ok_of_bind, ?_⟩
  rintro ⟨a, rfl, h⟩
  exact h

theorem succeeds_bind {x : Except ε α} {f : α → Except ε β} :
    Succeeds (x >>= f) ↔ ∃ a, x = .ok a ∧ Succeeds (f a) := by
  cases x with
  | error e => simp [bind, Except.bind]
  | ok a => simp [bind, Except.bind]

@[simp] theorem succeeds_map {x : Except ε α} {f : α → β} : Succeeds (f <$> x) ↔ Succeeds x := by
  cases x with
  | error e => simp [Functor.map, Except.map]
  | ok a => simp [Functor.map, Except.map]

end Succeeds

namespace Json

/-! ## Objects -/

/-- Fields of the given names come at most once, and all other fields can be passed over. -/
inductive Frames (names : List String) : List (Option String × Json) → Prop
  | nil : Frames names []
  | other {name : String} {j : Json} {rest : List (Option String × Json)}
      (hname : name ∉ names) (hskip : skip j = .ok ()) (hrest : Frames names rest) :
      Frames names ((some name, j) :: rest)
  | field {name : String} {j : Json} {rest : List (Option String × Json)}
      (hname : name ∈ names) (honce : ∀ x, (some name, x) ∉ rest) (hrest : Frames names rest) :
      Frames names ((some name, j) :: rest)

def IsObject (names : List String) (j : Json) : Prop :=
  ∃ entries, j = .object entries none ∧ Frames names entries

section Records

variable {ε σ α : Type} {fields : List (Field ε σ)} {entries : List (Option String × Json)}
  {names : List String}

theorem isObject_objectOf {fields : List (String × Json)} (hnames : ∀ f ∈ fields, f.1 ∈ names)
    (distinct : (fields.map Prod.fst).Nodup) : IsObject names (.objectOf fields) := by
  refine ⟨_, rfl, ?_⟩
  induction fields with
  | nil => exact .nil
  | cons f rest ih =>
    obtain ⟨hnew, hrest⟩ := List.nodup_cons.1 distinct
    refine .field (hnames f (List.mem_cons_self ..)) ?_ ?_
    · intro x hx
      obtain ⟨g, hg, hsame⟩ := List.mem_map.1 hx
      have hname : g.1 = f.1 := Option.some.inj (congrArg Prod.fst hsame)
      exact hnew (hname ▸ List.mem_map_of_mem hg)
    · exact ih (fun g hg => hnames g (List.mem_cons_of_mem _ hg)) hrest

theorem Frames.unique (h : Frames names entries) {name : String} (hname : name ∈ names)
    {x y : Json} (hx : (some name, x) ∈ entries) (hy : (some name, y) ∈ entries) : x = y := by
  induction h with
  | nil => cases hx
  | other hother _ _ ih =>
    rcases List.mem_cons.1 hx with hhead | hx'
    · cases hhead
      exact absurd hname hother
    · rcases List.mem_cons.1 hy with hhead | hy'
      · cases hhead
        exact absurd hname hother
      · exact ih hx' hy'
  | field _ honce _ ih =>
    rcases List.mem_cons.1 hx with hhead | hx' <;> rcases List.mem_cons.1 hy with hhead' | hy'
    · cases hhead
      cases hhead'
      rfl
    · cases hhead
      exact absurd hy' (honce y)
    · cases hhead'
      exact absurd hx' (honce x)
    · exact ih hx' hy'

theorem Frames.field?_eq_some (h : Frames names entries) {name : String} (hname : name ∈ names)
    {x : Json} : field? name (.object entries none) = some x ↔ (some name, x) ∈ entries := by
  have hfind {e : Option String × Json} (he : entries.reverse.find? (·.1 == some name) = some e) :
      (some name, e.2) ∈ entries := by
    have hmem := List.mem_reverse.1 (List.mem_of_find?_eq_some he)
    have hkey : e.1 = some name := by simpa using List.find?_some he
    exact hkey ▸ hmem
  rw [field?, Option.map_eq_some_iff]
  constructor
  · rintro ⟨e, he, rfl⟩
    exact hfind he
  · intro hx
    cases he : entries.reverse.find? (·.1 == some name) with
    | none =>
      have hno := List.find?_eq_none.1 he _ (List.mem_reverse.2 hx)
      simp at hno
    | some e => exact ⟨e, rfl, h.unique hname (hfind he) hx⟩

def Field.Uniform (f : Field ε σ) : Prop :=
  ∀ j s s', Succeeds (f.read j s) → Succeeds (f.read j s')

/-- What stands under the name of the field, if anything does, can be read. -/
def Field.Suits (f : Field ε σ) (start : σ) : Option Json → Prop
  | none => f.required = false
  | some j => Succeeds (f.read j start)

theorem uniform_optional (name : String) (decode : Json → Decoded ε α) (put : Option α → σ → σ) :
    (Field.optional name decode put).Uniform := by
  intro j s s' h
  simp only [Field.optional, succeeds_bind] at h ⊢
  obtain ⟨a, ha, -⟩ := h
  exact ⟨a, ha, succeeds_ok _⟩

theorem uniform_mandatory (name : String) (decode : Json → Decoded ε α) (put : α → σ → σ) :
    (Field.mandatory name decode put).Uniform := by
  intro j s s' h
  simp only [Field.mandatory, succeeds_bind] at h ⊢
  obtain ⟨a, ha, -⟩ := h
  exact ⟨a, ha, succeeds_ok _⟩

theorem suits_optional {name : String} {decode : Json → Decoded ε α} {put : Option α → σ → σ}
    {start : σ} {x : Option Json} :
    (Field.optional name decode put).Suits start x ↔
      ∀ j, x = some j → Succeeds (nullable decode j) := by
  cases x with
  | none => simp [Field.Suits, Field.optional]
  | some j => simp [Field.Suits, Field.optional]

theorem suits_mandatory {name : String} {decode : Json → Decoded ε α} {put : α → σ → σ}
    {start : σ} {x : Option Json} :
    (Field.mandatory name decode put).Suits start x ↔ ∃ j, x = some j ∧ Succeeds (decode j) := by
  cases x with
  | none => simp [Field.Suits, Field.mandatory]
  | some j => simp [Field.Suits, Field.mandatory]

theorem find_name {fields : List (Field ε σ)} {f : Field ε σ}
    (distinct : (fields.map (·.name)).Nodup) (hf : f ∈ fields) :
    fields.find? (·.name == f.name) = some f := by
  cases hfind : fields.find? (·.name == f.name) with
  | none => simpa using List.find?_eq_none.1 hfind f hf
  | some g =>
    have hname : g.name = f.name := by simpa using List.find?_some hfind
    rw [List.inj_on_of_nodup_map distinct (List.mem_of_find?_eq_some hfind) hf hname]

theorem readFields_other {name : String} {j : Json} {rest : List (Option String × Json)}
    (hname : name ∉ fields.map (·.name)) (hskip : skip j = .ok ()) (seen : List String) (s : σ) :
    readFields fields true ((some name, j) :: rest) seen s =
      readFields fields true rest seen s := by
  have hfind : fields.find? (·.name == name) = none := by
    simpa [List.find?_eq_none] using hname
  simp [readFields, hfind, hskip, liftFault, Except.mapError, bind, Except.bind]

theorem readFields_field (distinct : (fields.map (·.name)).Nodup) {f : Field ε σ} (hf : f ∈ fields)
    {j : Json} {rest : List (Option String × Json)} {seen : List String} (hnew : f.name ∉ seen)
    (s : σ) :
    readFields fields true ((some f.name, j) :: rest) seen s =
      f.read j s >>= readFields fields true rest (f.name :: seen) := by
  simp [readFields, find_name distinct hf, hnew]

def Unseen (seen : List String) (entries : List (Option String × Json)) : Prop :=
  ∀ name ∈ seen, ∀ x, (some name, x) ∉ entries

theorem Unseen.tail {seen : List String} {e : Option String × Json}
    {rest : List (Option String × Json)} (h : Unseen seen (e :: rest)) : Unseen seen rest :=
  fun name hname x hx => h name hname x (List.mem_cons_of_mem _ hx)

theorem Unseen.cons {seen : List String} {name : String} {rest : List (Option String × Json)}
    (h : Unseen seen rest) (honce : ∀ x, (some name, x) ∉ rest) : Unseen (name :: seen) rest :=
  List.forall_mem_cons.2 ⟨honce, h⟩

theorem readFields_succeeds (distinct : (fields.map (·.name)).Nodup)
    (uniform : ∀ f ∈ fields, f.Uniform) (start : σ) (h : Frames (fields.map (·.name)) entries)
    {seen : List String} (hseen : Unseen seen entries) (s : σ) :
    Succeeds (readFields fields true entries seen s) ↔
      ∀ f ∈ fields, ∀ x, (some f.name, x) ∈ entries → Succeeds (f.read x start) := by
  -- A field that is met has not been seen, so the reader never complains of a repetition.
  induction h generalizing seen s with
  | nil => simp [readFields]
  | @other name j rest hname hskip hrest ih =>
    rw [readFields_other hname hskip, ih hseen.tail]
    refine forall₃_congr fun f hf x => ?_
    have hne : f.name ≠ name := by
      rintro rfl
      exact hname (List.mem_map_of_mem hf)
    simp [hne]
  | @field name j rest hname honce hrest ih =>
    obtain ⟨f, hf, rfl⟩ := List.mem_map.1 hname
    have hnew : f.name ∉ seen := fun hs => hseen f.name hs j (List.mem_cons_self ..)
    rw [readFields_field distinct hf hnew, succeeds_bind]
    constructor
    · rintro ⟨s', hread, hafter⟩ g hg x hx
      rcases List.mem_cons.1 hx with hhead | hx
      · obtain ⟨hsame, rfl⟩ := Prod.mk.inj hhead
        obtain rfl := List.inj_on_of_nodup_map distinct hg hf (Option.some.inj hsame)
        exact uniform g hg x s start ⟨s', hread⟩
      · exact (ih (hseen.tail.cons honce) s').1 hafter g hg x hx
    · intro hall
      obtain ⟨s', hread⟩ := uniform f hf j start s (hall f hf j (List.mem_cons_self ..))
      refine ⟨s', hread, (ih (hseen.tail.cons honce) s').2 fun g hg x hx => ?_⟩
      exact hall g hg x (List.mem_cons_of_mem _ hx)

theorem mem_of_readFields (distinct : (fields.map (·.name)).Nodup)
    (h : Frames (fields.map (·.name)) entries) {seen seen' : List String}
    (hseen : Unseen seen entries) {s s' : σ}
    (hread : readFields fields true entries seen s = .ok (seen', s')) {name : String}
    (hname : name ∈ fields.map (·.name)) :
    name ∈ seen' ↔ name ∈ seen ∨ ∃ x, (some name, x) ∈ entries := by
  induction h generalizing seen s with
  | nil =>
    cases hread
    simp
  | @other n j rest hn hskip hrest ih =>
    rw [readFields_other hn hskip] at hread
    have hne : name ≠ n := by
      rintro rfl
      exact hn hname
    simp [ih hseen.tail hread, hne]
  | @field n j rest hn honce hrest ih =>
    obtain ⟨f, hf, rfl⟩ := List.mem_map.1 hn
    have hnew : f.name ∉ seen := fun hs => hseen f.name hs j (List.mem_cons_self ..)
    rw [readFields_field distinct hf hnew] at hread
    cases hvalue : f.read j s with
    | error e =>
      rw [hvalue] at hread
      cases hread
    | ok t =>
      rw [hvalue] at hread
      rw [ih (hseen.tail.cons honce) hread]
      by_cases hsame : name = f.name <;> simp [hsame]

theorem complain_succeeds {seen : List String} :
    Succeeds (complain fields seen : Decoded ε Unit) ↔
      ∀ f ∈ fields, f.required = true → f.name ∈ seen := by
  unfold complain
  split
  · rename_i hmissing
    simpa using hmissing
  · rename_i hall
    simpa using hall

theorem suits_iff {f : Field ε σ} {start : σ} {o : Option Json} :
    f.Suits start o ↔ (f.required = true → ∃ x, o = some x) ∧
      ∀ x, o = some x → Succeeds (f.read x start) := by
  cases o <;> simp [Field.Suits]

theorem asObject_succeeds (hnames : fields.map (·.name) = names) (distinct : names.Nodup)
    (uniform : ∀ f ∈ fields, f.Uniform) (start : σ) {j : Json} (h : IsObject names j) :
    Succeeds (asObject true fields start j) ↔ ∀ f ∈ fields, f.Suits start (j.field? f.name) := by
  subst hnames
  obtain ⟨entries, rfl, h⟩ := h
  have hunseen : Unseen [] entries := fun name hname => by cases hname
  have hsuits : (∀ f ∈ fields, f.Suits start (field? f.name (.object entries none))) ↔
      (∀ f ∈ fields, f.required = true → ∃ x, (some f.name, x) ∈ entries) ∧
        ∀ f ∈ fields, ∀ x, (some f.name, x) ∈ entries → Succeeds (f.read x start) := by
    rw [← forall₂_and]
    refine forall₂_congr fun f hf => ?_
    simp only [suits_iff, h.field?_eq_some (List.mem_map_of_mem hf)]
  have hread := readFields_succeeds distinct uniform start h hunseen start
  rw [hsuits, ← hread, asObject, succeeds_bind]
  constructor
  · rintro ⟨⟨seen, s⟩, hok, hrest⟩
    obtain ⟨_, -, hrest⟩ := succeeds_bind.1 hrest
    obtain ⟨_, hcomplain, -⟩ := succeeds_bind.1 hrest
    refine ⟨?_, ⟨_, hok⟩⟩
    intro f hf hrequired
    have hseen := complain_succeeds.1 ⟨_, hcomplain⟩ f hf hrequired
    simpa using (mem_of_readFields distinct h hunseen hok (List.mem_map_of_mem hf)).1 hseen
  · rintro ⟨hrequired, ⟨seen, s⟩, hok⟩
    have hcomplain : Succeeds (complain fields seen : Decoded ε Unit) := by
      refine complain_succeeds.2 fun f hf hf' => ?_
      exact (mem_of_readFields distinct h hunseen hok (List.mem_map_of_mem hf)).2
        (.inr (hrequired f hf hf'))
    obtain ⟨u, hu⟩ := hcomplain
    exact ⟨(seen, s), hok, succeeds_bind.2 ⟨(), rfl, succeeds_bind.2 ⟨u, hu, succeeds_ok _⟩⟩⟩

theorem asRecord_of_isObject {start : σ} {j : Json} (h : IsObject names j) :
    asRecord fields start j = asObject true fields start j := by
  obtain ⟨entries, rfl, -⟩ := h
  rfl

def Container (names : List String) (x : Json) : Prop :=
  x = .null ∨ IsObject names x

theorem nullable_succeeds {decode : Json → Decoded ε α} {x : Json} :
    Succeeds (nullable decode x) ↔ x = .null ∨ Succeeds (decode x) := by
  unfold nullable
  split
  · simp
  · rename_i hx
    rw [succeeds_map]
    exact (or_iff_right hx).symm

theorem container_succeeds (hnames : fields.map (·.name) = names) (distinct : names.Nodup)
    (uniform : ∀ f ∈ fields, f.Uniform) (free : ∀ f ∈ fields, f.required = false) (start : σ)
    {x : Json} (h : Container names x) :
    Succeeds (nullable (asRecord fields start) x) ↔
      ∀ f ∈ fields, f.Suits start (field? f.name x) := by
  rcases h with rfl | h
  · simpa [nullable, field?, Field.Suits] using free
  · have hrecord : nullable (asRecord fields start) x = some <$> asObject true fields start x := by
      obtain ⟨entries, rfl, -⟩ := h
      rfl
    rw [hrecord, succeeds_map, asObject_succeeds hnames distinct uniform start h]

end Records

/-! ## Leaves -/

def at? : List String → Json → Option Json
  | [], j => some j
  | name :: path, j => (j.field? name).bind (at? path)

theorem at?_singleton (name : String) (j : Json) : j.at? [name] = j.field? name := by
  cases h : j.field? name <;> simp [at?, h]

theorem at?_append (path rest : List String) (j : Json) :
    j.at? (path ++ rest) = (j.at? path).bind (at? rest) := by
  induction path generalizing j with
  | nil => rfl
  | cons name path ih => cases h : j.field? name <;> simp [at?, h, ih]

theorem forall_at?_append {P : Json → Prop} {j : Json} (path : List String) (name : String) :
    (∀ y, j.at? (path ++ [name]) = some y → P y) ↔
      ∀ x, j.at? path = some x → ∀ y, x.field? name = some y → P y := by
  simp only [at?_append, Option.bind_eq_some_iff, at?_singleton]
  constructor
  · exact fun h x hx y hy => h y ⟨x, hx, hy⟩
  · rintro h y ⟨x, hx, hy⟩
    exact h x hx y hy

end Json

end BufferLedger
