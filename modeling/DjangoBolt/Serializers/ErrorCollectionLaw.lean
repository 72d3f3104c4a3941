import DjangoBolt.Serializers.ErrorCollection

open Python

namespace DjangoBolt.Serializers

section

variable {Ty Data Val Text Json Inst : Type} (M : Decoding Ty Data Val Text Json Inst)
  (d : ClassDef)

structure Decoding.Documented : Prop where
  -- no two fields of a struct have one encoded name
  names : ∀ f ∈ d.structFields, ∀ g ∈ d.structFields, M.encodeName f = M.encodeName g → f = g
  -- a validation error wraps what `__post_init__` raises, here or in a nested serializer
  cause : ∀ text failure errors, M.decodeClass text = .error (.validation failure) →
    failure.cause = some errors → errors ≠ [] ∧ ∀ e ∈ errors, e.type = "value_error"
  wellFormed : ∀ text data msg, M.decodeAny text = some data →
    M.decodeClass text ≠ .error (.malformed msg)
  members : ∀ text data, M.decodeAny text = some data → M.isDict data = true →
    ∀ key, (M.member text key).isSome = (M.item data key).isSome

def failed {A : Type} : Except Failure A → Bool
  | .ok _ => false
  | .error _ => true

-- whether the value of a field, where there is one, fails the conversion of the class
def strictVerdict (data : Data) (f : String) : Option Bool :=
  (M.item data (M.encodeName f)).map (fun v => failed (M.convert true (M.fieldType f) v))

def jsonVerdict (text : Text) (f : String) : Option Bool :=
  (M.member text (M.encodeName f)).map (fun j => failed (M.decode (M.fieldType f) j))

def laxVerdict (data : Data) (f key : String) : Option Bool :=
  (M.item data key).map (fun v => failed (M.convert false (M.fieldType f) v))

def Fails (verdict : String → Option Bool) (f : String) : Prop :=
  (verdict f).getD (demanded d f || unfilled d f) = true

def LocatedAt (key : String) (e : LocatedError) : Prop := e.loc.take 2 = ["body", key]

-- no validator reports a field
def SilentOnFields (failure : Failure) : Prop :=
  ∀ errors, failure.cause = some errors → ∀ e ∈ errors, e.loc = ["body"]

def ErrorsComplete (verdict : String → Option Bool) (errors : List LocatedError) : Prop :=
  (∀ f ∈ d.structFields, Fails d verdict f → ∃ e ∈ errors, LocatedAt (M.encodeName f) e) ∧
    ∀ e ∈ errors, ∃ f ∈ d.structFields, Fails d verdict f ∧ LocatedAt (M.encodeName f) e

def Complete (verdict : String → Option Bool) : Validated Inst → Prop
  | .requestError errors => ErrorsComplete M d verdict errors
  | .validationError failure =>
      (∀ f ∈ d.structFields, ¬Fails d verdict f) ∧ SilentOnFields failure
  | _ => True

def SameReport : Validated Inst → Validated Inst → Prop
  | .ok _, .ok _ => True
  | .requestError errors, .requestError errors' => errors = errors'
  | .validationError _, .validationError _ => True
  | _, _ => False

variable (m : Metadata)

def dataKey (f : String) : String := m.renameMap.getD f f

-- the collecting pass has an error for the field
def CollectedAt (data : Data) (f : String) : Prop :=
  (laxVerdict M data f (dataKey m f)).getD (demanded d f) = true

def RenamesResolved : Prop := ∀ f ∈ d.structFields, dataKey m f = M.encodeName f

-- the lax pass decides as the strict one, and no field without a value has a bare `field()`
def SameVerdicts (data : Data) (verdict : String → Option Bool) : Prop :=
  (RenamesResolved M d m ∧ ∀ f ∈ d.structFields, verdict f = laxVerdict M data f (M.encodeName f) ∧
    (verdict f = none → unfilled d f = false)) ∨
  (¬RenamesResolved M d m ∧ ∀ key,
    (∃ f ∈ d.structFields, Fails d verdict f ∧ M.encodeName f = key) ↔
      ∃ f ∈ d.structFields, CollectedAt M d m data f ∧ dataKey m f = key)

def CompleteWhen (data : Data) (failure : Failure) (verdict : String → Option Bool) : Prop :=
  (SilentOnFields failure ∨ ∃ f ∈ d.structFields, Fails d verdict f) ∧
    ((M.isDict data = true ∧ SameVerdicts M d m data verdict) ∨
      (M.isDict data = false ∧ ∀ f ∈ d.structFields, ¬Fails d verdict f))

end

section

variable {Ty Data Val Text Json Inst : Type} {M : Decoding Ty Data Val Text Json Inst}
  {d : ClassDef} {m : Metadata} {data : Data} {verdict : String → Option Bool} {f : String}

theorem LocatedAt.key {key key' : String} {e : LocatedError} (h : LocatedAt key e)
    (h' : LocatedAt key' e) : key = key' := by
  have hkeys := h.symm.trans h'
  exact (List.cons.inj (List.cons.inj hkeys).2).1

theorem collectField_cases {idx : Nat} (h : (f, idx) ∈ d.structFields.zipIdx) :
    (collectField M d m data (f, idx) = none ∧ ¬CollectedAt M d m data f) ∨
      ∃ e, collectField M d m data (f, idx) = some e ∧ LocatedAt (dataKey m f) e ∧
        e.type ≠ "value_error" ∧ CollectedAt M d m data f := by
  rw [collectField, CollectedAt, laxVerdict, dataKey, isRequired_eq h]
  cases hv : M.item data (m.renameMap.getD f f) with
  | none =>
    cases hdemanded : demanded d f with
    | false => exact .inl ⟨rfl, by simp⟩
    | true => exact .inr ⟨_, rfl, rfl, by simp, rfl⟩
  | some v =>
    simp only [Option.map_some, Option.getD_some]
    cases M.convert false (M.fieldType f) v with
    | ok w => exact .inl ⟨rfl, by simp [failed]⟩
    | error e => exact .inr ⟨_, rfl, rfl, by simp, rfl⟩

theorem mem_collected {e : LocatedError} (he : e ∈ collectMsgspecErrors M d m data) :
    e.type ≠ "value_error" ∧
      ∃ f ∈ d.structFields, CollectedAt M d m data f ∧ LocatedAt (dataKey m f) e := by
  obtain ⟨⟨f, idx⟩, hx, hsome⟩ := List.mem_filterMap.mp he
  have hf := (getElem?_structFields.mp (List.mem_zipIdx_iff_getElem?.mp hx)).1
  rcases collectField_cases hx with ⟨hnone, -⟩ | ⟨e', hsome', hloc, htype, hbad⟩
  · rw [hnone] at hsome
    cases hsome
  · rw [hsome'] at hsome
    rw [← Option.some.inj hsome]
    exact ⟨htype, f, hf, hbad, hloc⟩

theorem collected_of_field (hf : f ∈ d.structFields) (h : CollectedAt M d m data f) :
    ∃ e ∈ collectMsgspecErrors M d m data, LocatedAt (dataKey m f) e := by
  obtain ⟨idx, hidx⟩ := List.mem_iff_getElem?.mp hf
  have hx : (f, idx) ∈ d.structFields.zipIdx := List.mem_zipIdx_iff_getElem?.mpr hidx
  rcases collectField_cases hx with ⟨-, hgood⟩ | ⟨e, hsome, hloc, -, -⟩
  · exact absurd h hgood
  · exact ⟨e, List.mem_filterMap.mpr ⟨_, hx, hsome⟩, hloc⟩

theorem errorsComplete_iff :
    ErrorsComplete M d verdict (collectMsgspecErrors M d m data) ↔
      ∀ key, (∃ f ∈ d.structFields, Fails d verdict f ∧ M.encodeName f = key) ↔
        ∃ f ∈ d.structFields, CollectedAt M d m data f ∧ dataKey m f = key := by
  constructor
  · rintro ⟨hall, honly⟩ key
    constructor
    · rintro ⟨f, hf, hfails, rfl⟩
      obtain ⟨e, he, hloc⟩ := hall f hf hfails
      obtain ⟨-, g, hg, hbad, hloc'⟩ := mem_collected he
      exact ⟨g, hg, hbad, hloc'.key hloc⟩
    · rintro ⟨g, hg, hbad, rfl⟩
      obtain ⟨e, he, hloc⟩ := collected_of_field hg hbad
      obtain ⟨f, hf, hfails, hloc'⟩ := honly e he
      exact ⟨f, hf, hfails, hloc'.key hloc⟩
  · intro hkeys
    refine ⟨fun f hf hfails => ?_, fun e he => ?_⟩
    · obtain ⟨g, hg, hbad, hkey⟩ := (hkeys _).mp ⟨f, hf, hfails, rfl⟩
      rw [← hkey]
      exact collected_of_field hg hbad
    · obtain ⟨-, g, hg, hbad, hloc⟩ := mem_collected he
      obtain ⟨f, hf, hfails, hkey⟩ := (hkeys _).mpr ⟨g, hg, hbad, rfl⟩
      exact ⟨f, hf, hfails, hkey ▸ hloc⟩

theorem fails_iff_collected (hkey : dataKey m f = M.encodeName f)
    (hpresent : (verdict f).isSome = (M.item data (M.encodeName f)).isSome) :
    (Fails d verdict f ↔ CollectedAt M d m data f) ↔
      verdict f = laxVerdict M data f (M.encodeName f) ∧
        (verdict f = none → unfilled d f = false) := by
  have hexclusive := not_demanded_and_unfilled (d := d) f
  rw [Fails, CollectedAt, hkey, laxVerdict]
  cases hitem : M.item data (M.encodeName f) with
  | none =>
    rw [hitem, Option.isSome_none, Option.isSome_eq_false_iff, Option.isNone_iff_eq_none]
      at hpresent
    rw [hpresent]
    revert hexclusive
    cases demanded d f <;> cases unfilled d f <;> simp
  | some v =>
    obtain ⟨b, hb⟩ := Option.isSome_iff_exists.mp (hpresent.trans (by rw [hitem]; rfl))
    rw [hb, Option.map_some, Option.getD_some, Option.getD_some, ← Bool.eq_iff_iff,
      Option.some.injEq]
    simp

theorem sameVerdicts_iff (hM : M.Documented d)
    (hpresent : ∀ f, (verdict f).isSome = (M.item data (M.encodeName f)).isSome) :
    SameVerdicts M d m data verdict ↔
      ErrorsComplete M d verdict (collectMsgspecErrors M d m data) := by
  rw [errorsComplete_iff, SameVerdicts]
  by_cases hresolved : RenamesResolved M d m
  · simp only [hresolved, true_and, not_true_eq_false, false_and, or_false]
    have hfields : (∀ f ∈ d.structFields, verdict f = laxVerdict M data f (M.encodeName f) ∧
        (verdict f = none → unfilled d f = false)) ↔
          ∀ f ∈ d.structFields, (Fails d verdict f ↔ CollectedAt M d m data f) :=
      forall₂_congr (fun f hf => (fails_iff_collected (hresolved f hf) (hpresent f)).symm)
    rw [hfields]
    constructor
    · intro hsame key
      constructor
      · rintro ⟨f, hf, hfails, rfl⟩
        exact ⟨f, hf, (hsame f hf).mp hfails, hresolved f hf⟩
      · rintro ⟨f, hf, hbad, rfl⟩
        exact ⟨f, hf, (hsame f hf).mpr hbad, (hresolved f hf).symm⟩
    · intro hkeys f hf
      constructor
      · intro hfails
        obtain ⟨g, hg, hbad, hkey⟩ := (hkeys _).mp ⟨f, hf, hfails, rfl⟩
        rw [hresolved g hg] at hkey
        rwa [← hM.names g hg f hf hkey]
      · intro hbad
        obtain ⟨g, hg, hfails, hkey⟩ := (hkeys _).mpr ⟨f, hf, hbad, rfl⟩
        rw [hresolved f hf] at hkey
        rwa [← hM.names g hg f hf hkey]
  · simp only [hresolved, false_and, false_or, not_false_eq_true, true_and]

theorem raiseCollected_complete (hM : M.Documented d) (failure : Failure)
    (hpresent : ∀ f, (verdict f).isSome = (M.item data (M.encodeName f)).isSome) :
    Complete M d verdict (raiseCollected M d m data failure) ↔
      CompleteWhen M d m data failure verdict := by
  rw [raiseCollected, CompleteWhen, sameVerdicts_iff hM hpresent]
  cases hdict : M.isDict data with
  | false =>
    simp only [Bool.false_eq_true, if_false, Complete, false_and, false_or, true_and]
    constructor
    · rintro ⟨hnone, hsilent⟩
      exact ⟨.inl hsilent, hnone⟩
    · rintro ⟨hsilent | ⟨f, hf, hfails⟩, hnone⟩
      · exact ⟨hnone, hsilent⟩
      · exact absurd hfails (hnone f hf)
  | true =>
    simp only [if_true, true_and, Bool.true_eq_false, false_and, or_false]
    cases herrors : collectMsgspecErrors M d m data with
    | nil =>
      simp only [Complete, ErrorsComplete, List.not_mem_nil, false_and, exists_false, imp_false,
        IsEmpty.forall_iff, implies_true, and_true]
      constructor
      · rintro ⟨hnone, hsilent⟩
        exact ⟨.inl hsilent, hnone⟩
      · rintro ⟨hsilent | ⟨f, hf, hfails⟩, hnone⟩
        · exact ⟨hnone, hsilent⟩
        · exact absurd hfails (hnone f hf)
    | cons e errors =>
      simp only [Complete]
      refine ⟨fun hcomplete => ⟨.inr ?_, hcomplete⟩, And.right⟩
      obtain ⟨f, hf, hfails, -⟩ := hcomplete.2 e List.mem_cons_self
      exact ⟨f, hf, hfails⟩

end

section

variable {Ty Data Val Text Json Inst : Type} {M : Decoding Ty Data Val Text Json Inst}
  {d : ClassDef} {text : Text} {data : Data} {failure : Failure} {errors : List LocatedError}

theorem strictVerdict_present (data : Data) (f : String) :
    (strictVerdict M data f).isSome = (M.item data (M.encodeName f)).isSome :=
  Option.isSome_map

theorem jsonVerdict_present (hM : M.Documented d) (hdata : M.decodeAny text = some data)
    (hdict : M.isDict data = true) (f : String) :
    (jsonVerdict M text f).isSome = (M.item data (M.encodeName f)).isSome :=
  Option.isSome_map.trans (hM.members text data hdata hdict _)

theorem validators_not_same (hM : M.Documented d) (m : Metadata)
    (hfails : M.decodeClass text = .error (.validation failure))
    (hcause : failure.cause = some errors) :
    ¬SameReport (Validated.requestError errors) (modelValidate M d m data) := by
  obtain ⟨hne, htypes⟩ := hM.cause text failure errors hfails hcause
  intro hsame
  rw [modelValidate] at hsame
  cases hclass : M.convertClass data with
  | ok v =>
    rw [hclass] at hsame
    exact hsame
  | error failure' =>
    rw [hclass] at hsame
    simp only at hsame
    rw [raiseCollected] at hsame
    split at hsame
    · cases hcollected : collectMsgspecErrors M d m data with
      | nil =>
        rw [hcollected] at hsame
        exact hsame
      | cons e rest =>
        rw [hcollected] at hsame
        have herrors : errors = e :: rest := hsame
        have he : e ∈ collectMsgspecErrors M d m data := hcollected ▸ List.mem_cons_self
        exact (mem_collected he).1 (htypes e (herrors ▸ List.mem_cons_self))
    · exact hsame

theorem sameReport_raise (m : Metadata) (data : Data) (failure failure' : Failure) :
    SameReport (raiseCollected M d m data failure) (raiseCollected M d m data failure') := by
  rw [raiseCollected, raiseCollected]
  split
  · cases collectMsgspecErrors M d m data with
    | nil => trivial
    | cons e rest => rfl
  · trivial

theorem sameReport_iff_rejected (m : Metadata) (data : Data) (failure : Failure) :
    SameReport (raiseCollected M d m data failure) (modelValidate M d m data) ↔
      ∃ failure', M.convertClass data = .error failure' := by
  rw [modelValidate]
  cases hclass : M.convertClass data with
  | error failure' => exact iff_of_true (sameReport_raise m data failure failure') ⟨_, rfl⟩
  | ok v =>
    refine iff_of_false (fun hsame => ?_) (fun ⟨_, h⟩ => by cases h)
    simp only at hsame
    rw [raiseCollected] at hsame
    split at hsame
    · cases hcollected : collectMsgspecErrors M d m data with
      | nil =>
        rw [hcollected] at hsame
        exact hsame
      | cons e rest =>
        rw [hcollected] at hsame
        exact hsame
    · exact hsame

theorem error_collection (hM : M.Documented d) (m : Metadata) :
    (∀ data failure, M.convertClass data = .error failure →
      (Complete M d (strictVerdict M data) (modelValidate M d m data) ↔
        CompleteWhen M d m data failure (strictVerdict M data))) ∧
    ∀ text data, M.decodeAny text = some data → M.isDict data = true →
      (∀ v, M.decodeClass text ≠ .ok v) →
      ∃ failure, M.decodeClass text = .error (.validation failure) ∧
        (Complete M d (jsonVerdict M text) (modelValidateJson M d m text) ∧
            SameReport (modelValidateJson M d m text) (modelValidate M d m data) ↔
          failure.cause = none ∧ (∃ failure', M.convertClass data = .error failure') ∧
            SameVerdicts M d m data (jsonVerdict M text)) := by
  constructor
  · intro data failure hfails
    rw [modelValidate, hfails]
    exact raiseCollected_complete hM failure (strictVerdict_present data)
  · intro text data hdata hdict hrejects
    obtain ⟨failure, hfails⟩ : ∃ failure, M.decodeClass text = .error (.validation failure) := by
      cases hclass : M.decodeClass text with
      | ok v => exact absurd hclass (hrejects v)
      | error raised =>
        cases raised with
        | malformed msg => exact absurd hclass (hM.wellFormed text data msg hdata)
        | validation failure => exact ⟨failure, rfl⟩
    refine ⟨failure, hfails, ?_⟩
    rw [modelValidateJson, hfails]
    simp only
    cases hcause : failure.cause with
    | some errors =>
      refine iff_of_false (fun h => ?_) (fun h => ?_)
      · exact validators_not_same hM m hfails hcause h.2
      · cases h.1
    | none =>
      have hsilent : SilentOnFields failure := by
        intro errors hsome
        rw [hcause] at hsome
        cases hsome
      rw [hdata]
      simp only
      rw [raiseCollected_complete hM failure (jsonVerdict_present hM hdata hdict),
        sameReport_iff_rejected, CompleteWhen]
      simp only [hsilent, true_or, true_and, hdict, Bool.true_eq_false, false_and, or_false]
      exact and_comm

inductive Scalar where
  | int (n : Int)
  | text (s : String)

def scalarToInt (strict : Bool) : Scalar → Except Failure Scalar
  | .int n => .ok (.int n)
  | .text s =>
      if !strict && !s.isEmpty && s.toList.all Char.isDigit then
        .ok (.int (s.toList.foldl (fun n c => 10 * n + (c.toNat - 48)) 0))
      else .error ⟨"Expected `int`, got `str`", none⟩

-- class Reading(Serializer): age: int, with a validator that rejects a negative age
def convertReading (data : Dict String Scalar) : Except Failure Scalar :=
  match data.get? "age" with
  | none => .error ⟨"Object missing required field `age`", none⟩
  | some v =>
      match scalarToInt true v with
      | .error e => .error ⟨e.msg ++ " - at `$.age`", none⟩
      | .ok (.int (.negSucc _)) =>
          .error ⟨"body.age: negative", some [⟨["body", "age"], "negative", "value_error"⟩]⟩
      | .ok w => .ok w

-- a JSON text is given by its entries
def readings : Decoding Unit (Dict String Scalar) Scalar (Dict String Scalar) Scalar Scalar where
  fieldType _ := ()
  encodeName f := f
  isDict _ := true
  item data key := data.get? key
  convert strict _ v := scalarToInt strict v
  convertClass := convertReading
  decodeAny text := some text
  decodeClass text :=
    match convertReading text with
    | .ok v => .ok v
    | .error failure => .error (.validation failure)
  member text key := text.get? key
  decode _ v := scalarToInt true v

def readingDef : ClassDef :=
  { rootDef with
    structFields := ["age"]
    nodup := by decide
    structDefaults := [.nodefault]
    hints := Dict.ofList [("age", .scalar "int")] }

def readingMetadata : Metadata := (initSubclass readingDef).metadata []

theorem readings_cause {data : Dict String Scalar} (h : convertReading data = .error failure)
    (hcause : failure.cause = some errors) :
    errors ≠ [] ∧ ∀ e ∈ errors, e.type = "value_error" := by
  rw [convertReading] at h
  split at h
  · rw [← Except.error.inj h] at hcause
    cases hcause
  · split at h
    · rw [← Except.error.inj h] at hcause
      cases hcause
    · rw [← Except.error.inj h] at hcause
      rw [← Option.some.inj hcause]
      exact ⟨List.cons_ne_nil _ _, List.forall_mem_singleton.mpr rfl⟩
    · cases h

theorem readings_documented : readings.Documented readingDef where
  names _ _ _ _ h := h
  cause text failure errors h hcause := by
    cases hclass : convertReading text with
    | ok v =>
      simp only [readings, hclass] at h
      cases h
    | error failure' =>
      simp only [readings, hclass] at h
      cases h
      exact readings_cause hclass hcause
  wellFormed text data msg _ h := by
    cases hclass : convertReading text <;> simp only [readings, hclass] at h <;> cases h
  members text data h _ key := by rw [← Option.some.inj h]; rfl

theorem old_collected : Complete readings readingDef
    (strictVerdict readings (Dict.ofList [("age", .text "old")]))
    (modelValidate readings readingDef readingMetadata (Dict.ofList [("age", .text "old")])) := by
  have hlaw := (error_collection readings_documented readingMetadata).1
    (Dict.ofList [("age", .text "old")]) _ rfl
  refine hlaw.mpr ⟨.inl ?_, .inl ⟨rfl, .inl ⟨fun _ _ => rfl, ?_⟩⟩⟩
  · intro errors h
    cases h
  · exact List.forall_mem_singleton.mpr ⟨rfl, fun h => by cases h⟩

-- a number as text passes the lax pass, and a validator's errors are lost in a dictionary
theorem seven_not_collected :
    readings.Documented readingDef ∧
    (∃ failure, modelValidate readings readingDef readingMetadata
        (Dict.ofList [("age", .text "7")]) = .validationError failure) ∧
    Fails readingDef (strictVerdict readings (Dict.ofList [("age", .text "7")])) "age" ∧
    ¬SameReport
      (modelValidateJson readings readingDef readingMetadata (Dict.ofList [("age", .int (-1))]))
      (modelValidate readings readingDef readingMetadata (Dict.ofList [("age", .int (-1))])) :=
  ⟨readings_documented, ⟨_, rfl⟩, rfl, fun h => h⟩

end

end DjangoBolt.Serializers
