import DjangoBolt.Serializers.FromModel

open Python

namespace DjangoBolt.Serializers

namespace ClassDef

variable (d : ClassDef)

-- msgspec's own layout: the last fields are the ones with defaults
def defaultAt (i : Nat) : Option StructDefault :=
  if i + d.structDefaults.length < d.structFields.length then none
  else d.structDefaults[i + d.structDefaults.length - d.structFields.length]?

def defaultOf (f : String) : Option StructDefault :=
  if f ∈ d.structFields then d.defaultAt (d.structFields.idxOf f) else none

end ClassDef

-- the default as `update_instance` compares it
def rawDefault : StructDefault → SerValue
  | .nodefault => .sentinel "NODEFAULT"
  | .value v => v
  | .factory _ => .sentinel "Factory"
  | .marker config => .marker config.default

section

variable (equal : SerValue → SerValue → Bool)

def keepsDefault (d : ClassDef) (f : String) (v : SerValue) : Bool :=
  ((iterFieldDefaults d).lookup f).any (fun dflt => equal v (rawDefault dflt))

-- the assignments of `update_instance`, in order
def updateWrites (d : ClassDef) (omitDefaults : Bool) (fields : List (String × SerValue)) :
    List String → Option (List (String × SerValue))
  | [] => some []
  | f :: fs =>
      match fields.lookup f with
      | none => none
      | some v =>
          if omitDefaults && keepsDefault equal d f v then updateWrites d omitDefaults fields fs
          else (updateWrites d omitDefaults fields fs).map (fun ws => (f, v) :: ws)

end

section

variable (V : Validators) (defs : ClassName → ClassDef) (metadata : ClassName → Metadata)

def fieldOf (result : Except FromModelError SerValue) (f : String) : Option SerValue :=
  match result with
  | .ok (.object _ fields) => fields.lookup f
  | _ => none

def others (fields : List (String × SerValue)) (f : String) : List (String × SerValue) :=
  fields.filter (fun e => e.1 ≠ f)

-- the value that a field takes when its argument is not given, and when it is `v`
def taken (c : ClassName) (fields : List (String × SerValue)) (f : String) : Option SerValue :=
  fieldOf (construct V defs metadata c (others fields f)) f

def settled (c : ClassName) (fields : List (String × SerValue)) (f : String) (v : SerValue) :
    Option SerValue :=
  fieldOf (construct V defs metadata c ((f, v) :: others fields f)) f

end

section

variable {d : ClassDef}

theorem getElem?_structFields {i : Nat} {f : String} :
    d.structFields[i]? = some f ↔ f ∈ d.structFields ∧ i = d.structFields.idxOf f := by
  constructor
  · intro h
    obtain ⟨hi, rfl⟩ := List.getElem?_eq_some_iff.mp h
    exact ⟨List.getElem_mem hi, (d.nodup.idxOf_getElem i hi).symm⟩
  · rintro ⟨hf, rfl⟩
    exact List.getElem?_idxOf hf

theorem lookup_iterFieldDefaults (f : String) :
    (iterFieldDefaults d).lookup f = d.defaultOf f := by
  apply Option.ext
  intro dflt
  rw [Dict.lookup_eq_some_iff _ (iterFieldDefaults_nodup d), iterFieldDefaults,
    List.mem_iff_getElem?, ClassDef.defaultOf]
  simp only [List.getElem?_zip_eq_some, List.getElem?_drop, getElem?_structFields]
  constructor
  · rintro ⟨i, ⟨hf, hi⟩, hdflt⟩
    have hbound : ¬d.structFields.idxOf f + d.structDefaults.length < d.structFields.length := by
      omega
    have hindex : d.structFields.idxOf f + d.structDefaults.length - d.structFields.length =
        d.structDefaults.length - d.structFields.length + i := by omega
    rw [if_pos hf, ClassDef.defaultAt, if_neg hbound, hindex]
    exact hdflt
  · intro h
    split at h
    · rename_i hf
      rw [ClassDef.defaultAt] at h
      split at h
      · cases h
      · rename_i hbound
        have hlt := List.idxOf_lt_length_of_mem hf
        refine ⟨d.structFields.idxOf f - (d.structFields.length - d.structDefaults.length),
          ⟨hf, by omega⟩, ?_⟩
        have hindex : d.structDefaults.length - d.structFields.length +
            (d.structFields.idxOf f - (d.structFields.length - d.structDefaults.length)) =
              d.structFields.idxOf f + d.structDefaults.length - d.structFields.length := by omega
        rw [hindex]
        exact h
    · cases h

end

section

variable {V : Validators} {defs : ClassName → ClassDef} {metadata : ClassName → Metadata}
  {c : ClassName} {d : ClassDef} {markers : Bool} {fs : List String}

theorem initFields_congr {data data' : List (String × SerValue)}
    (h : ∀ f ∈ fs, initField d data f = initField d data' f) :
    initFields c d markers data fs = initFields c d markers data' fs := by
  induction fs with
  | nil => rfl
  | cons f fs ih =>
    obtain ⟨hf, hfs⟩ := List.forall_mem_cons.mp h
    rw [initFields, initFields, hf, ih hfs]

theorem initFields_present {data es : List (String × SerValue)}
    (h : initFields c d markers data fs = .ok es) :
    ∀ f ∈ fs, (initField d data f).isSome = true := by
  induction fs generalizing es with
  | nil => exact fun f hf => absurd hf List.not_mem_nil
  | cons f fs ih =>
    rw [initFields] at h
    cases hf : initField d data f with
    | none =>
      rw [hf] at h
      cases h
    | some v =>
      simp only [hf] at h
      cases hv : fixMarker markers v with
      | none =>
        rw [hv] at h
        cases h
      | some w =>
        simp only [hv] at h
        cases hrest : initFields c d markers data fs with
        | error e =>
          rw [hrest] at h
          cases h
        | ok rest =>
          refine List.forall_mem_cons.mpr ⟨?_, ih hrest⟩
          rw [hf]
          rfl

theorem taken_eq {fields : List (String × SerValue)} {f : String} (hf : f ∈ (defs c).structFields) :
    taken V defs metadata c fields f =
      (((defs c).defaultOf f).bind structDefault).bind (settled V defs metadata c fields f) := by
  have hmissing : initField (defs c) (others fields f) f =
      ((defs c).defaultOf f).bind structDefault := by
    rw [initField, others, Dict.lookup_filter_ne, if_pos rfl]
    simp only
    rw [lookup_iterFieldDefaults]
  cases hdflt : ((defs c).defaultOf f).bind structDefault with
  | none =>
    rw [Option.bind_none, taken, construct]
    cases hinit : initFields c (defs c) (metadata c).hasFieldMarkers (others fields f)
        (defs c).structFields with
    | error e => rfl
    | ok es =>
      have hsome := initFields_present hinit f hf
      rw [hmissing, hdflt] at hsome
      cases hsome
  | some v =>
    rw [Option.bind_some, taken, settled, construct, construct]
    have hsame : ∀ g ∈ (defs c).structFields, initField (defs c) (others fields f) g =
        initField (defs c) ((f, v) :: others fields f) g := by
      intro g _
      by_cases hg : g = f
      · rw [hg, hmissing, hdflt, initField, List.lookup_cons, beq_self_eq_true]
      · rw [initField, initField, List.lookup_cons, beq_false_of_ne hg]
    rw [initFields_congr hsame]

end

structure LocatedError where
  loc : List String
  msg : String
  type : String
  deriving DecidableEq

-- a ValidationError of msgspec, with the errors of the RequestValidationError that it wraps
structure Failure where
  msg : String
  cause : Option (List LocatedError)

inductive DecodeFailure where
  | malformed (msg : String)
  | validation (failure : Failure)

-- what the two entry points use of msgspec, for the class that they are called on
structure Decoding (Ty Data Val Text Json Inst : Type) where
  fieldType : String → Ty
  encodeName : String → String
  isDict : Data → Bool
  item : Data → String → Option Val
  convert : Bool → Ty → Val → Except Failure Val
  convertClass : Data → Except Failure Inst
  decodeAny : Text → Option Data
  decodeClass : Text → Except DecodeFailure Inst
  member : Text → String → Option Json
  decode : Ty → Json → Except Failure Val

inductive Validated (Inst : Type) where
  | ok (v : Inst)
  | requestError (errors : List LocatedError)
  | validationError (failure : Failure)
  | decodeError (msg : String)

section

def backtick : Char := Char.ofNat 96

-- the rest of a match of ERR_RE: a path on one line, and a backtick that ends the message
def errTail (rest : List Char) : Option (List Char) :=
  let body :=
    match rest.reverse with
    | '\n' :: t :: body => if t = backtick then some body.reverse else none
    | t :: body => if t = backtick then some body.reverse else none
    | [] => none
  body.filter (fun path => !path.isEmpty && !path.contains '\n')

def errAt : List Char → Option (List Char)
  | a :: b :: c :: rest => if [a, b, c] = [backtick, '$', '.'] then errTail rest else none
  | _ => none

-- the leftmost match
def errSearch : List Char → Option (List Char)
  | [] => none
  | c :: cs => (errAt (c :: cs)).or (errSearch cs)

def errorLoc (dataKey msg : String) : List String :=
  "body" :: dataKey ::
    match errSearch msg.toList with
    | some path => (path.splitOn '.').map String.ofList
    | none => []

example : errorLoc "home" "Expected `str`, got `int` - at `$.street.name`" =
    ["body", "home", "street", "name"] := by decide +kernel

end

section

variable {Ty Data Val Text Json Inst : Type} (M : Decoding Ty Data Val Text Json Inst)
  (d : ClassDef) (m : Metadata)

def isRequired (idx : Nat) : Bool :=
  if idx + d.structDefaults.length < d.structFields.length then true
  else
    match d.structDefaults[idx + d.structDefaults.length - d.structFields.length]? with
    | some .nodefault => true
    | _ => false

def collectField (data : Data) (x : String × Nat) : Option LocatedError :=
  let dataKey := m.renameMap.getD x.1 x.1
  match M.item data dataKey with
  | none =>
      if isRequired d x.2 then
        some ⟨["body", dataKey], "Object missing required field `" ++ dataKey ++ "`", "missing"⟩
      else none
  | some v =>
      match M.convert false (M.fieldType x.1) v with
      | .ok _ => none
      | .error e => some ⟨errorLoc dataKey e.msg, e.msg, "validation_error"⟩

def collectMsgspecErrors (data : Data) : List LocatedError :=
  d.structFields.zipIdx.filterMap (collectField M d m data)

-- how both entry points end when msgspec has rejected the data
def raiseCollected (data : Data) (failure : Failure) : Validated Inst :=
  if M.isDict data then
    match collectMsgspecErrors M d m data with
    | [] => .validationError failure
    | errors => .requestError errors
  else .validationError failure

def modelValidate (data : Data) : Validated Inst :=
  match M.convertClass data with
  | .ok v => .ok v
  | .error failure => raiseCollected M d m data failure

def modelValidateJson (text : Text) : Validated Inst :=
  match M.decodeClass text with
  | .ok v => .ok v
  | .error (.malformed msg) => .decodeError msg
  | .error (.validation failure) =>
      match failure.cause with
      | some errors => .requestError errors
      | none =>
          match M.decodeAny text with
          | none => .validationError failure
          | some data => raiseCollected M d m data failure

end

section

variable (d : ClassDef)

-- msgspec asks for the field
def demanded (f : String) : Bool :=
  match d.defaultOf f with
  | none => true
  | some .nodefault => true
  | _ => false

-- a `field()` without a default: msgspec has its marker, and construction rejects the marker
def unfilled (f : String) : Bool :=
  match d.defaultOf f with
  | some (.marker config) => config.default.isNone
  | _ => false

variable {d}

theorem not_demanded_and_unfilled (f : String) : (demanded d f && unfilled d f) = false := by
  rw [demanded, unfilled]
  cases d.defaultOf f with
  | none => rfl
  | some dflt => cases dflt <;> rfl

theorem isRequired_eq {f : String} {idx : Nat} (h : (f, idx) ∈ d.structFields.zipIdx) :
    isRequired d idx = demanded d f := by
  have hget : d.structFields[idx]? = some f := List.mem_zipIdx_iff_getElem?.mp h
  obtain ⟨hf, rfl⟩ := getElem?_structFields.mp hget
  have hlt := List.idxOf_lt_length_of_mem hf
  rw [isRequired, demanded, ClassDef.defaultOf, if_pos hf, ClassDef.defaultAt]
  split
  · rfl
  · rename_i hle
    have hbound : d.structFields.idxOf f + d.structDefaults.length - d.structFields.length <
        d.structDefaults.length := by omega
    obtain ⟨dflt, hdflt⟩ : ∃ dflt, d.structDefaults[d.structFields.idxOf f +
        d.structDefaults.length - d.structFields.length]? = some dflt :=
      ⟨_, List.getElem?_eq_getElem hbound⟩
    rw [hdflt]
    cases dflt <;> rfl

end

end DjangoBolt.Serializers
