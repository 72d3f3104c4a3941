import DjangoBolt.Foundation.Fields
import DjangoBolt.Serializers.ModelRoundTrip
import DjangoBolt.Serializers.Validators

open Python

namespace DjangoBolt.Serializers

open Fields

-- `decoder.decode` of a JSON body, `model_validate`, and the form extractor
inductive InputPath where
  | json
  | convert
  | form
  deriving DecidableEq

-- a serializer class, and what msgspec makes of a body for it
structure InputClass (Raw : Type) where
  definition : ClassDef
  lineage : Lineage
  hasFieldMarkers : Bool
  encodeName : String → String
  convert : InputPath → String → Raw → Option SerValue
  isSequence : String → Bool
  isListOrNone : Raw → Bool
  singleton : Raw → Raw
  -- whether the entries that are no field's pass: unknown fields, the tag
  surplus : List (String × Raw) → Bool
  names : ∀ f ∈ definition.structFields, ∀ g ∈ definition.structFields,
    encodeName f = encodeName g → f = g

namespace InputClass

variable {Raw : Type} (C : InputClass Raw)

def fieldNames : List String := C.definition.structFields

-- a form gives a list field its only value without the list
def prepared (path : InputPath) (f : String) (v : Raw) : Raw :=
  match path with
  | .form => if C.isSequence f && !C.isListOrNone v then C.singleton v else v
  | _ => v

def converted (path : InputPath) (f : String) (v : Raw) : Option SerValue :=
  C.convert path f (C.prepared path f v)

def given (path : InputPath) (body : Dict String Raw) : List String → Option FieldValues
  | [] => some []
  | f :: fs =>
      match body.get? (C.encodeName f) with
      | none => given path body fs
      | some v =>
          (C.converted path f v).bind (fun w =>
            (given path body fs).map (fun data => (f, w) :: data))

def validated (fields : FieldValues) : Option FieldValues :=
  match (C.lineage.postInit fields).2 with
  | .built values => some values
  | _ => none

-- the entries of the body that no field takes
def surplusOf (body : Dict String Raw) : List (String × Raw) :=
  body.entries.filter (fun e => !(C.fieldNames.map C.encodeName).contains e.1)

-- a body into an instance, `none` where it is rejected
def decode (path : InputPath) (body : Dict String Raw) : Option FieldValues :=
  if C.surplus (C.surplusOf body) then
    match C.given path body C.fieldNames with
    | none => none
    | some data =>
        match initFields C.lineage.cls C.definition C.hasFieldMarkers data C.fieldNames with
        | .error _ => none
        | .ok fields => C.validated fields
  else none

def isReadOnly (f : String) : Prop := f ∈ (ownMetadata C.definition).readOnlyFields

def SameElsewhere (f : String) (body body' : Dict String Raw) : Prop :=
  body.erase (C.encodeName f) = body'.erase (C.encodeName f)

-- the value that a body gives a field: the converted one, or the default of an absent one
def taken (path : InputPath) (body : Dict String Raw) (f : String) : Option SerValue :=
  (match body.get? (C.encodeName f) with
    | some v => C.converted path f v
    | none => ((iterFieldDefaults C.definition).lookup f).bind structDefault).bind
      (fixMarker C.hasFieldMarkers)

-- the instance that the other fields of the body make with this value of `f`
def verdict (path : InputPath) (body : Dict String Raw) (f : String) (v : Option SerValue) :
    Option FieldValues :=
  (fieldsOf (Function.update (C.taken path body) f v) C.fieldNames).bind C.validated

-- another part of the body is rejected
def RejectedElsewhere (path : InputPath) (body : Dict String Raw) (f : String) : Prop :=
  C.surplus (C.surplusOf body) = false ∨
    ∃ g ∈ C.fieldNames, g ≠ f ∧ C.taken path body g = none

-- the checks of the class are left with the same instance, or reject both values
def ErasedByChecks (path : InputPath) (body : Dict String Raw) (f : String)
    (v w : Option SerValue) : Prop :=
  C.lineage.skipValidation = false ∧ C.verdict path body f v = C.verdict path body f w

section

variable {C} {data : FieldValues}

theorem initFields_eq {c : ClassName} {d : ClassDef} {markers : Bool} (fs : List String) :
    (initFields c d markers data fs).toOption =
      fieldsOf (fun f => (initField d data f).bind (fixMarker markers)) fs := by
  induction fs with
  | nil => rfl
  | cons f fs ih =>
    rw [initFields, fieldsOf, ← ih]
    cases initField d data f with
    | none => rfl
    | some v =>
      dsimp only
      rw [Option.bind_some]
      cases fixMarker markers v with
      | none => rfl
      | some w => cases initFields c d markers data fs <;> rfl

variable {path : InputPath} {body : Dict String Raw} {fs : List String} {f : String}
  {body' : Dict String Raw}

theorem given_eq_none (h : C.given path body fs = none) : ∃ f ∈ fs, C.taken path body f = none := by
  induction fs with
  | nil => cases h
  | cons f fs ih =>
    rw [given] at h
    cases hbody : body.get? (C.encodeName f) with
    | none =>
      rw [hbody] at h
      obtain ⟨g, hg, hnone⟩ := ih h
      exact ⟨g, List.mem_cons_of_mem _ hg, hnone⟩
    | some v =>
      simp only [hbody] at h
      cases hv : C.converted path f v with
      | none =>
        refine ⟨f, List.mem_cons_self, ?_⟩
        simp only [taken, hbody, hv, Option.bind_none]
      | some w =>
        rw [hv, Option.bind_some, Option.map_eq_none_iff] at h
        obtain ⟨g, hg, hnone⟩ := ih h
        exact ⟨g, List.mem_cons_of_mem _ hg, hnone⟩

theorem given_names (h : C.given path body fs = some data) : (data.map Prod.fst).Sublist fs := by
  induction fs generalizing data with
  | nil =>
    rw [← Option.some.inj h]
    exact List.Sublist.refl _
  | cons f fs ih =>
    rw [given] at h
    cases hbody : body.get? (C.encodeName f) with
    | none =>
      rw [hbody] at h
      exact (ih h).cons _
    | some v =>
      simp only [hbody] at h
      obtain ⟨w, -, hmap⟩ := Option.bind_eq_some_iff.mp h
      obtain ⟨rest, hrest, rfl⟩ := Option.map_eq_some_iff.mp hmap
      exact (ih hrest).cons_cons _

theorem given_lookup (hnodup : fs.Nodup) (h : C.given path body fs = some data) (hf : f ∈ fs) :
    (body.get? (C.encodeName f)).map (C.converted path f) = (data.lookup f).map some := by
  induction fs generalizing data with
  | nil => exact absurd hf List.not_mem_nil
  | cons g fs ih =>
    obtain ⟨hg, hfs⟩ := List.nodup_cons.mp hnodup
    rw [given] at h
    cases hbody : body.get? (C.encodeName g) with
    | none =>
      rw [hbody] at h
      rcases List.mem_cons.mp hf with rfl | hf
      · have habsent : data.lookup f = none := by
          rw [← Option.not_isSome_iff_eq_none, Dict.lookup_isSome]
          exact fun hmem => hg ((given_names h).subset hmem)
        rw [hbody, habsent]
        rfl
      · exact ih hfs h hf
    | some v =>
      simp only [hbody] at h
      obtain ⟨w, hw, hmap⟩ := Option.bind_eq_some_iff.mp h
      obtain ⟨rest, hrest, rfl⟩ := Option.map_eq_some_iff.mp hmap
      rw [List.lookup_cons]
      rcases List.mem_cons.mp hf with rfl | hf
      · rw [beq_self_eq_true, hbody, Option.map_some, hw]
        rfl
      · rw [beq_false_of_ne (fun heq : f = g => hg (heq ▸ hf))]
        exact ih hfs hrest hf

theorem decode_eq (C : InputClass Raw) (path : InputPath) (body : Dict String Raw) :
    C.decode path body = if C.surplus (C.surplusOf body) then
      (fieldsOf (C.taken path body) C.fieldNames).bind C.validated else none := by
  rw [decode]
  split
  · cases hgiven : C.given path body C.fieldNames with
    | none =>
      have hnone : fieldsOf (C.taken path body) C.fieldNames = none :=
        fieldsOf_eq_none.mpr (given_eq_none hgiven)
      rw [hnone, Option.bind_none]
    | some data =>
      have htaken : ∀ f ∈ C.fieldNames, (initField C.definition data f).bind
          (fixMarker C.hasFieldMarkers) = C.taken path body f := by
        intro f hf
        have hlookup := given_lookup C.definition.nodup hgiven hf
        rw [initField, taken]
        cases hbody : body.get? (C.encodeName f) with
        | none =>
          rw [hbody, Option.map_none, eq_comm, Option.map_eq_none_iff] at hlookup
          rw [hlookup]
        | some v =>
          rw [hbody, Option.map_some, eq_comm, Option.map_eq_some_iff] at hlookup
          obtain ⟨w, hw, hconverted⟩ := hlookup
          rw [hw]
          simp only [← hconverted]
      rw [← fieldsOf_congr htaken, ← initFields_eq]
      dsimp only
      cases initFields C.lineage.cls C.definition C.hasFieldMarkers data C.fieldNames <;> rfl
  · rfl

theorem taken_elsewhere {f g : String} (hf : f ∈ C.fieldNames) (hg : g ∈ C.fieldNames)
    (hne : g ≠ f) (h : C.SameElsewhere f body body') :
    C.taken path body g = C.taken path body' g := by
  have hkey : C.encodeName g ≠ C.encodeName f := fun heq => hne (C.names g hg f hf heq)
  have hget : ∀ b : Dict String Raw, (b.erase (C.encodeName f)).get? (C.encodeName g) =
      b.get? (C.encodeName g) := fun b => by rw [Dict.get?_erase, if_neg hkey]
  rw [taken, taken, ← hget body, ← hget body', h]

theorem surplusOf_erase (hf : f ∈ C.fieldNames) (b : Dict String Raw) :
    C.surplusOf (b.erase (C.encodeName f)) = C.surplusOf b := by
  rw [surplusOf, surplusOf, Dict.erase, List.filter_filter]
  refine List.filter_congr (fun e _ => ?_)
  have hcontains : (C.fieldNames.map C.encodeName).contains (C.encodeName f) = true := by
    rw [List.contains_iff_mem]
    exact List.mem_map_of_mem hf
  by_cases he : e.1 = C.encodeName f
  · rw [he, hcontains]
    rfl
  · simp [he]

theorem surplusOf_elsewhere (hf : f ∈ C.fieldNames) (h : C.SameElsewhere f body body') :
    C.surplusOf body = C.surplusOf body' := by
  rw [← surplusOf_erase hf body, h, surplusOf_erase hf body']

theorem verdict_elsewhere (hf : f ∈ C.fieldNames) (h : C.SameElsewhere f body body')
    (v : Option SerValue) : C.verdict path body f v = C.verdict path body' f v := by
  rw [verdict, verdict]
  refine congrArg (fun es => es.bind C.validated) (fieldsOf_congr (fun g hg => ?_))
  by_cases hgf : g = f
  · rw [hgf, Function.update_self, Function.update_self]
  · rw [Function.update_of_ne hgf, Function.update_of_ne hgf, taken_elsewhere hf hg hgf h]

theorem decode_verdict (f : String) (hsurplus : C.surplus (C.surplusOf body) = true) :
    C.decode path body = C.verdict path body f (C.taken path body f) := by
  rw [decode_eq, if_pos hsurplus, verdict, Function.update_eq_self]

theorem validated_of_skip (h : C.lineage.skipValidation = true) (fields : FieldValues) :
    C.validated fields = some fields := by
  rw [validated, Lineage.postInit, if_pos h]

theorem verdict_eq_none (h : ∃ g ∈ C.fieldNames, g ≠ f ∧ C.taken path body g = none)
    (v : Option SerValue) : C.verdict path body f v = none := by
  obtain ⟨g, hg, hne, hnone⟩ := h
  have hfields : fieldsOf (Function.update (C.taken path body) f v) C.fieldNames = none :=
    fieldsOf_eq_none.mpr ⟨g, hg, by rw [Function.update_of_ne hne, hnone]⟩
  rw [verdict, hfields, Option.bind_none]

theorem verdict_injective (hf : f ∈ C.fieldNames) (hskip : C.lineage.skipValidation = true)
    (hothers : ∀ g ∈ C.fieldNames, g ≠ f → C.taken path body g ≠ none) {v w : Option SerValue}
    (h : C.verdict path body f v = C.verdict path body f w) : v = w := by
  have hverdict : ∀ o, C.verdict path body f o =
      fieldsOf (Function.update (C.taken path body) f o) C.fieldNames := by
    intro o
    rw [verdict]
    cases fieldsOf (Function.update (C.taken path body) f o) C.fieldNames with
    | none => rfl
    | some es => exact validated_of_skip hskip es
  have hread : ∀ o es, fieldsOf (Function.update (C.taken path body) f o) C.fieldNames = some es →
      es.lookup f = o := by
    intro o es hes
    rw [fieldsOf_lookup hes hf, Function.update_self]
  have hrejected : ∀ o, fieldsOf (Function.update (C.taken path body) f o) C.fieldNames = none →
      o = none := by
    intro o hnone
    obtain ⟨g, hg, hvalue⟩ := fieldsOf_eq_none.mp hnone
    by_cases hgf : g = f
    · rwa [hgf, Function.update_self] at hvalue
    · rw [Function.update_of_ne hgf] at hvalue
      exact absurd hvalue (hothers g hg hgf)
  rw [hverdict, hverdict] at h
  cases hes : fieldsOf (Function.update (C.taken path body) f v) C.fieldNames with
  | none =>
    rw [hrejected v hes, hrejected w (h ▸ hes)]
  | some es =>
    rw [← hread v es hes, ← hread w es (h ▸ hes)]

end

section

def ticketDef : ClassDef :=
  { rootDef with
    structFields := ["id", "title"]
    nodup := by decide
    structDefaults := [.marker ⟨true, false, false, none, none, none⟩, .nodefault]
    hints := Dict.ofList [("id", .scalar "str"), ("title", .scalar "str")] }

def ticketLineage : Lineage where
  cls := "Ticket"
  others := []
  bases _ := []
  members _ := ∅
  nested := []
  literals := []
  classAttr _ := none
  nodup := List.nodup_singleton _
  acyclic := not_ancestor_of_no_bases
  linear := List.pairwise_singleton _ _

def ticketInput : InputClass SerValue where
  definition := ticketDef
  lineage := ticketLineage
  hasFieldMarkers := true
  encodeName f := f
  convert _ _ v := some v
  isSequence _ := false
  isListOrNone _ := false
  singleton v := v
  surplus _ := true
  names _ _ _ _ h := h

def ticketBody (id : String) : Dict String SerValue :=
  Dict.ofList [("id", .atom id), ("title", .atom "printer")]

def ticketModel : ModelClass := ⟨"0", [], fun _ => true⟩

theorem ticket_id_readOnly : ticketInput.isReadOnly "id" := by
  rw [isReadOnly]
  decide

end

end InputClass

end DjangoBolt.Serializers
