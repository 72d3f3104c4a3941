import DjangoBolt.Serializers.Dump

open Python

namespace DjangoBolt.Serializers

inductive Json where
  | null
  | text (s : String)
  | array (items : List Json)
  | object (owner : Option ClassName) (entries : List (String × Origin × Json))

def ownedField (owner : ClassName) : Origin → List Owned
  | .field f => [(owner, f)]
  | _ => []

namespace Out

mutual

def exposes : Out → List Owned
  | text _ => []
  | raw v => v.exposes
  | builtins v => v.exposes
  | list items => exposesAll items
  | object owner entries => exposesEntries owner entries

def exposesAll : List Out → List Owned
  | [] => []
  | o :: os => exposes o ++ exposesAll os

def exposesEntries (owner : ClassName) : List (String × Origin × Out) → List Owned
  | [] => []
  | (_, origin, o) :: rest => ownedField owner origin ++ (exposes o ++ exposesEntries owner rest)

end

theorem mem_exposesAll {items : List Out} {p : Owned} :
    p ∈ exposesAll items ↔ ∃ o ∈ items, p ∈ o.exposes := by
  induction items with
  | nil => simp [exposesAll]
  | cons o os ih => simp [exposesAll, ih]

theorem mem_exposesEntries {owner : ClassName} {entries : List (String × Origin × Out)} {p : Owned} :
    p ∈ exposesEntries owner entries ↔
      ∃ e ∈ entries, p ∈ ownedField owner e.2.1 ∨ p ∈ e.2.2.exposes := by
  induction entries with
  | nil => simp [exposesEntries]
  | cons e rest ih =>
    obtain ⟨key, origin, o⟩ := e
    simp [exposesEntries, ih, or_assoc]

end Out

namespace Json

mutual

def exposes : Json → List Owned
  | null => []
  | text _ => []
  | array items => exposesAll items
  | object owner entries => exposesEntries owner entries

def exposesAll : List Json → List Owned
  | [] => []
  | j :: js => exposes j ++ exposesAll js

def exposesEntries (owner : Option ClassName) : List (String × Origin × Json) → List Owned
  | [] => []
  | (_, origin, j) :: rest =>
      (match owner with
        | none => []
        | some c => ownedField c origin) ++ (exposes j ++ exposesEntries owner rest)

end

end Json

inductive EncodeError where
  | unsupported
  | badKey
  deriving DecidableEq

section

variable (classes : ClassName → DumpClass)

def consOk {A : Type} (x : Except EncodeError A) (xs : Except EncodeError (List A)) :
    Except EncodeError (List A) :=
  match x, xs with
  | .ok a, .ok as => .ok (a :: as)
  | .error e, _ => .error e
  | _, .error e => .error e

def tagJson (cls : ClassName) : List (String × Origin × Json) :=
  match (classes cls).tagValue with
  | none => []
  | some t => [((classes cls).tagField, .plain, .text t)]

def keyText : SerValue → Except EncodeError String
  | .atom s => .ok s
  | _ => .error .badKey

mutual

def encodeValue : SerValue → Except EncodeError Json
  | .none => .ok .null
  | .atom s => .ok (.text s)
  | .sentinel _ => .error .unsupported
  | .manager => .error .unsupported
  | .marker none => .error .unsupported
  | .marker (some v) => (encodeValue v).map (fun j => .object none [("default", .plain, j)])
  | .list items => (encodeValues items).map .array
  | .tuple items => (encodeValues items).map .array
  | .set items => (encodeValues items).map .array
  | .dict entries => (encodeDict entries).map (.object none)
  | .object cls fields =>
      (encodeFields cls fields).map (fun es => .object (some cls) (tagJson classes cls ++ es))

def encodeValues : List SerValue → Except EncodeError (List Json)
  | [] => .ok []
  | v :: vs => consOk (encodeValue v) (encodeValues vs)

def encodeDict : List (SerValue × SerValue) → Except EncodeError (List (String × Origin × Json))
  | [] => .ok []
  | (k, v) :: rest =>
      match keyText k, encodeValue v with
      | .ok key, .ok j => consOk (.ok (key, .plain, j)) (encodeDict rest)
      | .error e, _ => .error e
      | _, .error e => .error e

def encodeFields (cls : ClassName) :
    List (String × SerValue) → Except EncodeError (List (String × Origin × Json))
  | [] => .ok []
  | (name, v) :: rest =>
      consOk ((encodeValue v).map (fun j => ((classes cls).encodeNames.getD name name, .field name, j)))
        (encodeFields cls rest)

end

mutual

def encode : Out → Except EncodeError Json
  | .text s => .ok (.text s)
  | .raw v => encodeValue classes v
  | .builtins v => encodeValue classes v
  | .list items => (encodeAll items).map .array
  | .object owner entries => (encodeEntries entries).map (.object (some owner))

def encodeAll : List Out → Except EncodeError (List Json)
  | [] => .ok []
  | o :: os => consOk (encode o) (encodeAll os)

def encodeEntries : List (String × Origin × Out) → Except EncodeError (List (String × Origin × Json))
  | [] => .ok []
  | (key, origin, o) :: rest =>
      consOk ((encode o).map (fun j => (key, origin, j))) (encodeEntries rest)

end

variable {classes}

theorem consOk_eq_ok {A : Type} {x : Except EncodeError A} {xs : Except EncodeError (List A)}
    {l : List A} (h : consOk x xs = .ok l) : ∃ a as, x = .ok a ∧ xs = .ok as ∧ l = a :: as := by
  cases x with
  | error e => cases h
  | ok a =>
    cases xs with
    | error e => cases h
    | ok as => exact ⟨a, as, rfl, rfl, (Except.ok.inj h).symm⟩

theorem map_eq_ok {A B : Type} {f : A → B} {x : Except EncodeError A} {b : B}
    (h : x.map f = .ok b) : ∃ a, x = .ok a ∧ f a = b := by
  cases x with
  | error e => cases h
  | ok a => exact ⟨a, rfl, Except.ok.inj h⟩

theorem exposesEntries_append (owner : Option ClassName) (es fs : List (String × Origin × Json)) :
    Json.exposesEntries owner (es ++ fs) =
      Json.exposesEntries owner es ++ Json.exposesEntries owner fs := by
  induction es with
  | nil => rfl
  | cons e es ih =>
    obtain ⟨key, origin, j⟩ := e
    simp [Json.exposesEntries, ih]

theorem exposes_tagJson (cls : ClassName) :
    Json.exposesEntries (some cls) (tagJson classes cls) = [] := by
  rw [tagJson]
  cases (classes cls).tagValue <;> rfl

mutual

theorem exposes_encodeValue : ∀ (v : SerValue) (j : Json), encodeValue classes v = .ok j →
    j.exposes = v.exposes
  | .none, j, h => by
    rw [← Except.ok.inj h]
    rfl
  | .atom s, j, h => by
    rw [← Except.ok.inj h]
    rfl
  | .sentinel _, j, h => by cases h
  | .manager, j, h => by cases h
  | .marker none, j, h => by cases h
  | .marker (some v), j, h => by
    obtain ⟨k, hk, rfl⟩ := map_eq_ok h
    simp [Json.exposes, Json.exposesEntries, SerValue.exposes, exposes_encodeValue v k hk]
  | .list items, j, h => by
    obtain ⟨js, hjs, rfl⟩ := map_eq_ok h
    exact exposes_encodeValues items js hjs
  | .tuple items, j, h => by
    obtain ⟨js, hjs, rfl⟩ := map_eq_ok h
    exact exposes_encodeValues items js hjs
  | .set items, j, h => by
    obtain ⟨js, hjs, rfl⟩ := map_eq_ok h
    exact exposes_encodeValues items js hjs
  | .dict entries, j, h => by
    obtain ⟨es, hes, rfl⟩ := map_eq_ok h
    exact exposes_encodeDict entries es hes
  | .object cls fields, j, h => by
    obtain ⟨es, hes, rfl⟩ := map_eq_ok h
    rw [Json.exposes, exposesEntries_append, exposes_tagJson, List.nil_append]
    exact exposes_encodeFields cls fields es hes

theorem exposes_encodeValues : ∀ (vs : List SerValue) (js : List Json),
    encodeValues classes vs = .ok js → Json.exposesAll js = SerValue.exposesAll vs
  | [], js, h => by
    rw [← Except.ok.inj h]
    rfl
  | v :: vs, js, h => by
    obtain ⟨j, ks, hj, hks, rfl⟩ := consOk_eq_ok h
    rw [Json.exposesAll, SerValue.exposesAll, exposes_encodeValue v j hj,
      exposes_encodeValues vs ks hks]

theorem exposes_encodeDict : ∀ (entries : List (SerValue × SerValue))
    (es : List (String × Origin × Json)), encodeDict classes entries = .ok es →
    Json.exposesEntries none es = SerValue.exposesEntries entries
  | [], es, h => by
    rw [← Except.ok.inj h]
    rfl
  | (.atom s, v) :: rest, es, h => by
    rw [encodeDict, keyText] at h
    cases hv : encodeValue classes v with
    | error e =>
      simp only [hv] at h
      cases h
    | ok j =>
      simp only [hv] at h
      obtain ⟨e, ks, he, hks, rfl⟩ := consOk_eq_ok h
      rw [← Except.ok.inj he]
      simp [Json.exposesEntries, SerValue.exposesEntries, SerValue.exposes,
        exposes_encodeValue v j hv, exposes_encodeDict rest ks hks]
  | (.none, v) :: rest, es, h => by simp [encodeDict, keyText] at h
  | (.sentinel _, v) :: rest, es, h => by simp [encodeDict, keyText] at h
  | (.manager, v) :: rest, es, h => by simp [encodeDict, keyText] at h
  | (.marker _, v) :: rest, es, h => by simp [encodeDict, keyText] at h
  | (.list _, v) :: rest, es, h => by simp [encodeDict, keyText] at h
  | (.tuple _, v) :: rest, es, h => by simp [encodeDict, keyText] at h
  | (.set _, v) :: rest, es, h => by simp [encodeDict, keyText] at h
  | (.dict _, v) :: rest, es, h => by simp [encodeDict, keyText] at h
  | (.object _ _, v) :: rest, es, h => by simp [encodeDict, keyText] at h

theorem exposes_encodeFields (cls : ClassName) : ∀ (fields : List (String × SerValue))
    (es : List (String × Origin × Json)), encodeFields classes cls fields = .ok es →
    Json.exposesEntries (some cls) es = SerValue.exposesFields cls fields
  | [], es, h => by
    rw [← Except.ok.inj h]
    rfl
  | (name, v) :: rest, es, h => by
    obtain ⟨e, ks, he, hks, rfl⟩ := consOk_eq_ok h
    obtain ⟨j, hj, rfl⟩ := map_eq_ok he
    simp [Json.exposesEntries, ownedField, SerValue.exposesFields, exposes_encodeValue v j hj,
      exposes_encodeFields cls rest ks hks]

end

mutual

theorem exposes_encode : ∀ (o : Out) (j : Json), encode classes o = .ok j → j.exposes = o.exposes
  | .text s, j, h => by
    rw [← Except.ok.inj h]
    rfl
  | .raw v, j, h => exposes_encodeValue v j h
  | .builtins v, j, h => exposes_encodeValue v j h
  | .list items, j, h => by
    obtain ⟨js, hjs, rfl⟩ := map_eq_ok h
    exact exposes_encodeAll items js hjs
  | .object owner entries, j, h => by
    obtain ⟨es, hes, rfl⟩ := map_eq_ok h
    exact exposes_encodeEntries owner entries es hes

theorem exposes_encodeAll : ∀ (os : List Out) (js : List Json), encodeAll classes os = .ok js →
    Json.exposesAll js = Out.exposesAll os
  | [], js, h => by
    rw [← Except.ok.inj h]
    rfl
  | o :: os, js, h => by
    obtain ⟨j, ks, hj, hks, rfl⟩ := consOk_eq_ok h
    rw [Json.exposesAll, Out.exposesAll, exposes_encode o j hj, exposes_encodeAll os ks hks]

theorem exposes_encodeEntries (owner : ClassName) : ∀ (entries : List (String × Origin × Out))
    (es : List (String × Origin × Json)), encodeEntries classes entries = .ok es →
    Json.exposesEntries (some owner) es = Out.exposesEntries owner entries
  | [], es, h => by
    rw [← Except.ok.inj h]
    rfl
  | (key, origin, o) :: rest, es, h => by
    obtain ⟨e, ks, he, hks, rfl⟩ := consOk_eq_ok h
    obtain ⟨j, hj, rfl⟩ := map_eq_ok he
    simp [Json.exposesEntries, Out.exposesEntries, exposes_encode o j hj,
      exposes_encodeEntries owner rest ks hks]

end

end

end DjangoBolt.Serializers
