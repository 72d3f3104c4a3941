import DjangoBolt.Serializers.FastPathLaw

open Python

namespace DjangoBolt.Serializers

-- msgspec on the values that it knows without the hook, for classes that are encoded as objects
structure PlainOptions where
  encodeName : ClassName → String → String
  tag : ClassName → List (String × String)
  leaves : ClassName → String → SerValue → Bool

namespace PlainOptions

section

variable (O : PlainOptions)

def tagJson (c : ClassName) : List (String × JsonValue) :=
  (O.tag c).map (fun e => (e.1, .text e.2))

def tagDict (c : ClassName) : List (String × SerValue) := (O.tag c).map (fun e => (e.1, .atom e.2))

def consSome {A : Type} (a : Option A) (as : Option (List A)) : Option (List A) :=
  match a, as with
  | some a, some as => some (a :: as)
  | _, _ => none

def keyOf : SerValue → Option String
  | .atom t => some t
  | _ => none

mutual

def json : SerValue → Option JsonValue
  | .none => some .null
  | .atom t => some (.text t)
  | .list items => (jsonAll items).map .array
  | .tuple items => (jsonAll items).map .array
  | .set items => (jsonAll items).map .array
  | .dict entries => (jsonDict entries).map .object
  | .object c fields => (jsonFields c fields).map (fun js => .object (O.tagJson c ++ js))
  | _ => none

def jsonAll : List SerValue → Option (List JsonValue)
  | [] => some []
  | v :: vs => consSome (json v) (jsonAll vs)

def jsonDict : List (SerValue × SerValue) → Option (List (String × JsonValue))
  | [] => some []
  | (k, v) :: rest =>
      consSome ((keyOf k).bind (fun key => (json v).map (fun j => (key, j)))) (jsonDict rest)

def jsonFields (c : ClassName) : List (String × SerValue) → Option (List (String × JsonValue))
  | [] => some []
  | (f, v) :: rest =>
      if O.leaves c f v then jsonFields c rest
      else consSome ((json v).map (fun j => (O.encodeName c f, j))) (jsonFields c rest)

end

mutual

def builtins : SerValue → Option SerValue
  | .none => some .none
  | .atom t => some (.atom t)
  | .list items => (builtinsAll items).map .list
  | .tuple items => (builtinsAll items).map .list
  | .set items => (builtinsAll items).map .list
  | .dict entries => (builtinsDict entries).map .dict
  | .object c fields => (builtinsFields c fields).map (fun es => pyDict (O.tagDict c ++ es))
  | _ => none

def builtinsAll : List SerValue → Option (List SerValue)
  | [] => some []
  | v :: vs => consSome (builtins v) (builtinsAll vs)

def builtinsDict : List (SerValue × SerValue) → Option (List (SerValue × SerValue))
  | [] => some []
  | (k, v) :: rest =>
      consSome ((builtins k).bind (fun key => (builtins v).map (fun w => (key, w))))
        (builtinsDict rest)

def builtinsFields (c : ClassName) : List (String × SerValue) → Option (List (String × SerValue))
  | [] => some []
  | (f, v) :: rest =>
      if O.leaves c f v then builtinsFields c rest
      else consSome ((builtins v).map (fun w => (O.encodeName c f, w))) (builtinsFields c rest)

end

end

variable {O : PlainOptions}

theorem consSome_eq_some {A : Type} {a : Option A} {as : Option (List A)} {l : List A}
    (h : consSome a as = some l) : ∃ b bs, a = some b ∧ as = some bs ∧ l = b :: bs := by
  cases a with
  | none => cases h
  | some b =>
    cases as with
    | none => cases h
    | some bs => exact ⟨b, bs, rfl, rfl, (Option.some.inj h).symm⟩

theorem keyOf_builtins {k key : SerValue} (h : O.builtins k = some key) : keyOf key = keyOf k := by
  cases k with
  | none =>
    rw [builtins] at h
    rw [← Option.some.inj h]
  | atom t =>
    rw [builtins] at h
    rw [← Option.some.inj h]
  | list items | tuple items | set items | dict items | object c items =>
    rw [builtins] at h
    obtain ⟨x, -, rfl⟩ := Option.map_eq_some_iff.mp h
    rfl
  | _ =>
    rw [builtins] at h
    · cases h
    all_goals
      intros
      contradiction

theorem jsonDict_append (es fs : List (SerValue × SerValue)) :
    O.jsonDict (es ++ fs) =
      (O.jsonDict es).bind (fun js => (O.jsonDict fs).map (fun ks => js ++ ks)) := by
  induction es with
  | nil =>
    rw [List.nil_append, jsonDict, Option.bind_some]
    cases O.jsonDict fs <;> rfl
  | cons e es ih =>
    obtain ⟨k, v⟩ := e
    rw [List.cons_append, jsonDict, jsonDict, ih]
    cases (keyOf k).bind (fun key => (O.json v).map (fun j => (key, j))) with
    | none => rfl
    | some p =>
      cases O.jsonDict es with
      | none => rfl
      | some js => cases O.jsonDict fs <;> rfl

theorem jsonDict_tag (c : ClassName) :
    O.jsonDict ((O.tagDict c).map (fun e => (.atom e.1, e.2))) = some (O.tagJson c) := by
  rw [tagDict, tagJson]
  induction O.tag c with
  | nil => rfl
  | cons e es ih =>
    rw [List.map_cons, List.map_cons, List.map_cons, jsonDict, ih]
    rfl

mutual

theorem json_builtins : ∀ v w : SerValue, O.builtins v = some w → O.json w = O.json v
  | .none, w, h => by
      rw [builtins] at h
      rw [← Option.some.inj h]
  | .atom t, w, h => by
      rw [builtins] at h
      rw [← Option.some.inj h]
  | .list items, w, h => by
      rw [builtins] at h
      obtain ⟨ws, hws, rfl⟩ := Option.map_eq_some_iff.mp h
      rw [json, json, json_builtinsAll items ws hws]
  | .tuple items, w, h => by
      rw [builtins] at h
      obtain ⟨ws, hws, rfl⟩ := Option.map_eq_some_iff.mp h
      rw [json, json, json_builtinsAll items ws hws]
  | .set items, w, h => by
      rw [builtins] at h
      obtain ⟨ws, hws, rfl⟩ := Option.map_eq_some_iff.mp h
      rw [json, json, json_builtinsAll items ws hws]
  | .dict entries, w, h => by
      rw [builtins] at h
      obtain ⟨ws, hws, rfl⟩ := Option.map_eq_some_iff.mp h
      rw [json, json, json_builtinsDict entries ws hws]
  | .object c fields, w, h => by
      rw [builtins] at h
      obtain ⟨es, hes, rfl⟩ := Option.map_eq_some_iff.mp h
      rw [pyDict, json, json, List.map_append, jsonDict_append, jsonDict_tag,
        json_builtinsFields c fields es hes]
      cases O.jsonFields c fields <;> rfl
  | .sentinel _, w, h => by cases h
  | .manager, w, h => by cases h
  | .marker _, w, h => by cases h
termination_by structural v => v

theorem json_builtinsAll : ∀ vs ws : List SerValue, O.builtinsAll vs = some ws →
    O.jsonAll ws = O.jsonAll vs
  | [], ws, h => by
      rw [builtinsAll] at h
      rw [← Option.some.inj h]
  | v :: vs, ws, h => by
      rw [builtinsAll] at h
      obtain ⟨w, rest, hw, hrest, rfl⟩ := consSome_eq_some h
      rw [jsonAll, jsonAll, json_builtins v w hw, json_builtinsAll vs rest hrest]
termination_by structural vs => vs

theorem json_builtinsDict : ∀ es fs : List (SerValue × SerValue), O.builtinsDict es = some fs →
    O.jsonDict fs = O.jsonDict es
  | [], fs, h => by
      rw [builtinsDict] at h
      rw [← Option.some.inj h]
  | (k, v) :: es, fs, h => by
      rw [builtinsDict] at h
      obtain ⟨p, rest, hp, hrest, rfl⟩ := consSome_eq_some h
      obtain ⟨key, hkey, hv⟩ := Option.bind_eq_some_iff.mp hp
      obtain ⟨w, hw, rfl⟩ := Option.map_eq_some_iff.mp hv
      rw [jsonDict, jsonDict, keyOf_builtins hkey, json_builtins v w hw,
        json_builtinsDict es rest hrest]
termination_by structural es => es

theorem json_builtinsFields : ∀ (c : ClassName) (fields es : List (String × SerValue)),
    O.builtinsFields c fields = some es →
    O.jsonDict (es.map (fun e => (.atom e.1, e.2))) = O.jsonFields c fields
  | _, [], es, h => by
      rw [builtinsFields] at h
      rw [← Option.some.inj h, jsonFields]
      rfl
  | c, (f, v) :: fields, es, h => by
      rw [builtinsFields] at h
      rw [jsonFields]
      split at h
      · rename_i hleaves
        rw [if_pos hleaves]
        exact json_builtinsFields c fields es h
      · rename_i hleaves
        rw [if_neg hleaves]
        obtain ⟨p, rest, hp, hrest, rfl⟩ := consSome_eq_some h
        obtain ⟨w, hw, rfl⟩ := Option.map_eq_some_iff.mp hp
        rw [List.map_cons, jsonDict, json_builtins v w hw, json_builtinsFields c fields rest hrest]
        rfl
termination_by structural _ fields => fields

end

end PlainOptions

section

variable (H : Hierarchy) (omitDefaults : ClassName → Bool)
  (atDefault : ClassName → String → SerValue → Bool)

def plainOptionsOf : PlainOptions where
  encodeName c f := (ownRenameMap (H.defs c)).getD f f
  tag c :=
    match (H.defs c).tagValue with
    | none => []
    | some t => [((H.defs c).tagField, t)]
  leaves c f v := false || (omitDefaults c && atDefault c f v)

-- msgspec for a hierarchy whose classes are not array-like, and without UNSET
def plainMsgspec : Msgspec where
  json := (plainOptionsOf H omitDefaults atDefault).json
  builtins := (plainOptionsOf H omitDefaults atDefault).builtins
  encodeName := (plainOptionsOf H omitDefaults atDefault).encodeName
  arrayLike _ := false
  omitDefaults := omitDefaults
  atDefault := atDefault
  unset _ := false

theorem plain_jsonEntries (es : List (String × SerValue)) :
    (plainOptionsOf H omitDefaults atDefault).jsonDict (es.map (fun e => (.atom e.1, e.2))) =
      (plainMsgspec H omitDefaults atDefault).jsonEntries es := by
  induction es with
  | nil => rfl
  | cons e es ih =>
    rw [List.map_cons, PlainOptions.jsonDict, ih, Msgspec.jsonEntries, PlainOptions.keyOf,
      Option.bind_some]
    change PlainOptions.consSome (((plainMsgspec H omitDefaults atDefault).json e.2).map _) _ = _
    cases (plainMsgspec H omitDefaults atDefault).json e.2 with
    | none => rfl
    | some j => cases (plainMsgspec H omitDefaults atDefault).jsonEntries es <;> rfl

theorem plain_builtinEntries (c : ClassName) (fields : List (String × SerValue)) :
    (plainOptionsOf H omitDefaults atDefault).builtinsFields c fields =
      (plainMsgspec H omitDefaults atDefault).builtinEntries c fields := by
  induction fields with
  | nil =>
    rw [PlainOptions.builtinsFields]
    rfl
  | cons e fields ih =>
    rw [PlainOptions.builtinsFields, Msgspec.builtinEntries, ih]
    change (if (plainMsgspec H omitDefaults atDefault).leftOut c e = true then _ else _) = _
    split
    · rfl
    · change PlainOptions.consSome (((plainMsgspec H omitDefaults atDefault).builtins e.2).map _) _ = _
      cases (plainMsgspec H omitDefaults atDefault).builtins e.2 with
      | none => rfl
      | some w =>
        cases (plainMsgspec H omitDefaults atDefault).builtinEntries c fields <;> rfl

variable {H}

theorem plainMsgspec_documented
    (hnames : ∀ c, (tagKeys (H.ownClasses c) ++ (H.defs c).structFields.map
      (fun f => (ownRenameMap (H.defs c)).getD f f)).Nodup)
    (hapart : ∀ c, ∀ f ∈ tagKeys (H.ownClasses c), f ∉ (H.defs c).structFields) :
    (plainMsgspec H omitDefaults atDefault).Documented H where
  text _ := rfl
  manager := rfl
  dict es := by
    rw [← plain_jsonEntries]
    rfl
  list vs j h := by
    obtain ⟨items, -, rfl⟩ := Option.map_eq_some_iff.mp h
    exact ⟨items, rfl⟩
  builtins := PlainOptions.json_builtins
  struct c fields _ := by
    have htag : (plainOptionsOf H omitDefaults atDefault).tagDict c =
        tagPairs (H.ownClasses c) := by
      change List.map _ (match (H.defs c).tagValue with
        | none => []
        | some t => [((H.defs c).tagField, t)]) = match (H.defs c).tagValue with
        | none => []
        | some t => [((H.defs c).tagField, SerValue.atom t)]
      cases (H.defs c).tagValue <;> rfl
    rw [← plain_builtinEntries, ← htag]
    rfl
  array _ _ _ harray := by cases harray
  names := hnames
  tagApart := hapart
  renames _ := .inl (fun _ _ => rfl)

end

end DjangoBolt.Serializers
