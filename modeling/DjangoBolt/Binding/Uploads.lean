import DjangoBolt.Binding.Injector

open Python

namespace DjangoBolt.Binding

abbrev FileDict := List (String × PyValue)

inductive FilePart where
  | single (file : FileDict)
  | several (first second : FileDict) (rest : List FileDict)

-- what a list under `_upload_files` may hold; an `UploadFile` with the identity of the object
inductive Item where
  | info (file : FileDict)
  | upload (id : Nat) (attrs : List (String × PyValue))
  | other (v : PyValue)

namespace Item

def value : Item → PyValue
  | info file => .dict file
  | upload _ attrs => .instance "UploadFile" attrs
  | other v => v

def object : Item → Option Nat
  | upload id _ => some id
  | _ => none

def isInfo : Item → Bool
  | info _ => true
  | _ => false

def shift (n : Nat) : Item → Item
  | upload id attrs => upload (n + id) attrs
  | x => x

@[simp] theorem value_shift (n : Nat) (x : Item) : (x.shift n).value = x.value := by
  cases x <;> rfl

theorem isInfo_of_value {x : Item} (h : ∀ file, x.value ≠ .dict file) : x.isInfo = false := by
  cases x with
  | info file => exact absurd rfl (h file)
  | upload id attrs => rfl
  | other v => rfl

end Item

inductive Held where
  | single (file : FileDict)
  | several (items : List Item)

namespace Held

def value : Held → PyValue
  | single file => .dict file
  | several items => .list (items.map Item.value)

def items : Held → List Item
  | single _ => []
  | several xs => xs

end Held

def FilePart.held : FilePart → Held
  | single file => .single file
  | several first second rest => .several (.info first :: .info second :: rest.map Item.info)

-- the objects that `dec_hook` builds in one conversion, numbered from 0, and those that each
-- attribute of the result holds
structure Building where
  built : Nat
  holds : String → Option (List Item)

structure Hooked (M : Msgspec) where
  building : Annotation → PyValue → Building
  fresh : ∀ ty v name items, (building ty v).holds name = some items →
    ∀ x ∈ items, (∀ file, x.value ≠ .dict file) ∧
      ∀ id, x.object = some id → id < (building ty v).built
  absent : ∀ ty v r name, M.convert ty v false true = .ok r →
    (building ty v).holds name = none → (r.getAttr name).isNone = true
  present : ∀ ty v r name items, M.convert ty v false true = .ok r →
    (building ty v).holds name = some items →
      (r.getAttr name).isNone = false ∧ uploadItems (r.getAttr name) = items.map Item.value

structure UploadCall (M : Msgspec) where
  hook : Hooked M
  maps : Maps
  body : Bytes
  parts : Dict String FilePart
  -- the first error of the dependencies that are awaited before the loop, and what the others give
  gathered : Option Failure
  resolve : FieldDefinition → Except Failure Arg

structure Tracking where
  slot : Option Held
  created : Nat

def Tracking.items (t : Tracking) : List Item := (t.slot.map Held.items).getD []

structure BindState where
  bodyObj : Option PyValue
  tracking : Tracking

def hasUploadField (M : Msgspec) (s : String) : Bool :=
  (M.fields s).any (fun g => g.type.isUploadFileType)

def uploadNames (M : Msgspec) (s : String) : List String :=
  ((M.fields s).filter (fun f => f.type.isUploadFileType)).map StructField.name

def uploadStruct (M : Msgspec) (f : FieldDefinition) : Option String :=
  match f.source, f.annotation.unwrapOptional with
  | .form, .struct s => if hasUploadField M s then some s else none
  | _, _ => none

def uploadsFrom (n : Nat) : List Item → Except Failure (List Item) × Nat
  | [] => (.ok [], n)
  | .info file :: rest =>
      match uploadsFrom (n + 1) rest with
      | (.ok us, m) => (.ok (.upload n (fileInfoAttrs file) :: us), m)
      | (.error e, m) => (.error e, m)
  | _ :: _ => (.error (.attributeError "object has no attribute 'get'"), n)

def trackItems (us : List Item) : Option Held → Except Failure Held
  | none => .ok (.several us)
  | some (.several old) => .ok (.several (old ++ us))
  | some (.single _) => .error (.attributeError "object has no attribute 'extend'")

def extendItems (values : List (List Item)) : Option Held → Except Failure Held
  | none => .ok (.several values.flatten)
  | some (.several old) => .ok (.several (old ++ values.flatten))
  | some (.single file) =>
      if values.isEmpty then .ok (.single file)
      else .error (.attributeError "object has no attribute 'append'")

def firstItem (expectsList : Bool) (us : List Item) : Except Failure PyValue :=
  if expectsList then .ok (.list (us.map Item.value))
  else
    match us with
    | [] => .error .indexError
    | u :: _ => .ok u.value

def heldUpload (expectsList : Bool) (h : Held) (t : Tracking) :
    Except Failure PyValue × Tracking :=
  match h with
  | .several items =>
      match uploadsFrom t.created items with
      | (.error e, n) => (.error e, { t with created := n })
      | (.ok us, n) =>
          match trackItems us t.slot with
          | .error e => (.error e, { t with created := n })
          | .ok slot => (firstItem expectsList us, ⟨some slot, n⟩)
  | .single file =>
      let upload := Item.upload t.created (fileInfoAttrs file)
      match trackItems [upload] t.slot with
      | .error e => (.error e, { t with created := t.created + 1 })
      | .ok slot =>
          (.ok (if expectsList then .list [upload.value] else upload.value),
            ⟨some slot, t.created + 1⟩)

def heldValue (expectsUpload expectsList : Bool) (h : Held) (t : Tracking) :
    Except Failure PyValue × Tracking :=
  if expectsUpload then heldUpload expectsList h t
  else (.ok (if expectsList && !h.value.isList then .list [h.value] else h.value), t)

namespace UploadCall

variable {M : Msgspec} (c : UploadCall M)

def reserved : Bool := c.parts.contains uploadKey

def partsMap : PyMap := c.parts.mapValues (fun p => p.held.value)

-- `files_map` in the middle of the loop: only the list of uploads ever changes
def filesMap (slot : Option Held) : PyMap :=
  match slot with
  | none => c.partsMap
  | some h => c.partsMap.set uploadKey h.value

def heldAt (key : String) (slot : Option Held) : Option Held :=
  if key = uploadKey then slot else (c.parts.get? key).map FilePart.held

def bindFile (f : FieldDefinition) (t : Tracking) : Except Failure PyValue × Tracking :=
  let key := orName f.aliasName f.name
  match c.heldAt key t.slot with
  | some h =>
      heldValue f.annotation.isUploadFileType
        (f.annotation.unwrapOptional.getOrigin == some .list) h t
  | none =>
      if f.default.isSome || f.annotation.isOptional then (.ok (defaultValue f.default), t)
      else
        (.error (.requestValidation
          [⟨"file_missing", [.key "body", .key key], "Missing required file", .none⟩]), t)

def formData (s : String) : PyMap :=
  wrapSequences (collectSequenceFieldNames M s) (mergeFiles c.maps.form c.partsMap)

def structBuilding (s : String) : Building :=
  c.hook.building (.struct s) (.dict (c.formData s).entries)

-- `_collect_struct_errors` converts every field that is present once more
def collectBuilt (s : String) : Nat :=
  ((M.fields s).map fun g =>
    match (c.formData s).get? g.encodeName with
    | some v => (c.hook.building g.type v).built
    | none => 0).sum

def refusedBuilt (s : String) : Nat :=
  match M.convert (.struct s) (.dict (c.formData s).entries) false true with
  | .error (.validation _) => (c.structBuilding s).built + c.collectBuilt s
  | _ => (c.structBuilding s).built

def heldUploads (s : String) : List (List Item) :=
  (uploadNames M s).filterMap (c.structBuilding s).holds

def noFiles (slot : Option Held) : Bool := c.parts.entries.isEmpty && slot.isNone

def bindStruct (s : String) (t : Tracking) : Except Failure PyValue × Tracking :=
  match convertStruct M s (c.formData s) "form field" true with
  | .error e => (.error e, { t with created := t.created + c.refusedBuilt s })
  | .ok result =>
      let created := t.created + (c.structBuilding s).built
      -- `files_map or {}`: an empty map is replaced, and the list is lost with the new one
      if c.noFiles t.slot then (.ok result, { t with created := created })
      else
        match extendItems ((c.heldUploads s).map (List.map (Item.shift t.created))) t.slot with
        | .error e => (.error e, { t with created := created })
        | .ok slot => (.ok result, ⟨some slot, created⟩)

-- query, header, path and cookie values are text, which `dec_hook` refuses
def bindOther (f : FieldDefinition) (s : BindState) : Except Failure Arg × BindState :=
  match fullStep M c.maps c.body f ⟨c.filesMap s.tracking.slot, s.bodyObj⟩ with
  | .error e => (.error e, s)
  | .ok (v, full) => (.ok v, { s with bodyObj := full.bodyObj })

def bindStep (f : FieldDefinition) (s : BindState) : Except Failure Arg × BindState :=
  match uploadStruct M f with
  | some name =>
      let r := c.bindStruct name s.tracking
      (argOf r.1, { s with tracking := r.2 })
  | none =>
      match f.source with
      | .dependency => (c.resolve f, s)
      | .file =>
          let r := c.bindFile f s.tracking
          (argOf r.1, { s with tracking := r.2 })
      | _ => c.bindOther f s

def bindFields : List FieldDefinition → BindState → Call Arg →
    Except Failure (Call Arg) × BindState
  | [], s, call => (.ok call, s)
  | f :: fs, s, call =>
      match c.bindStep f s with
      | (.error e, s') => (.error e, s')
      | (.ok v, s') => bindFields fs s' (call.put f.target v)

def initial : BindState := ⟨none, (c.parts.get? uploadKey).map FilePart.held, 0⟩

end UploadCall

structure Cleanup (R : Type) where
  result : Except Failure R
  created : Nat
  uploads : Option Held

-- `for upload in upload_files: upload.close_sync()`, where what cannot be closed is suppressed
def Cleanup.closed {R : Type} (d : Cleanup R) : List Nat :=
  ((d.uploads.map Held.items).getD []).filterMap Item.object

def UploadCall.dispatch {M : Msgspec} {R : Type} (c : UploadCall M)
    (fields : List FieldDefinition) (handler : Call Arg → Except Failure R) : Cleanup R :=
  match c.gathered with
  | some e => ⟨.error e, 0, none⟩
  | none =>
      match c.bindFields fields c.initial Call.empty with
      | (.error e, s) => ⟨.error e, s.tracking.created, none⟩
      | (.ok call, s) =>
          ⟨handler call, s.tracking.created,
            if (fieldNeeds M fields).fileUploads then s.tracking.slot else none⟩

namespace UploadCall

variable {M : Msgspec} (c : UploadCall M) {slot : Option Held} {t : Tracking}

end UploadCall

end DjangoBolt.Binding
