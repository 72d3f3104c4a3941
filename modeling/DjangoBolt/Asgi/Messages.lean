import DjangoBolt.Asgi.Exchange

namespace DjangoBolt.Asgi

namespace AsgiResponseStart

def latin1 (b : Bytes) : String := String.ofList (b.map (fun c => Char.ofNat c.toNat))

def lowerName (name : Bytes) : String :=
  String.ofList (name.map (fun c => (Char.ofNat c.toNat).toLower))

def carried (st : AsgiResponseStart) (name : String) : List String :=
  st.headers.filterMap (fun h => if lowerName h.1 = name then some (latin1 h.2) else none)

-- the values the response is to have under a name, those of an event stream replacing its own
def shown (st : AsgiResponseStart) (name : String) : List String :=
  if (st.carried "content-type").any (fun v => "text/event-stream".toList.isPrefixOf v.toList) then
    ((antiBuffering.lookup name).map (fun v => [v])).getD (st.carried name)
  else st.carried name

structure Valid (st : AsgiResponseStart) : Prop where
  status : 100 ≤ st.status.toNat ∧ st.status.toNat < 1000
  headers : ∀ h ∈ st.headers, (headerName h.1).isSome ∧ (headerValue h.2).isSome

variable {st : AsgiResponseStart} {b : UInt8}

theorem nameChar_some {c : Char} (h : nameChar b = some c) : c = (Char.ofNat b.toNat).toLower := by
  rw [nameChar] at h
  split at h
  · exact (Option.some.inj h).symm
  · rename_i hupper
    split at h
    · have hsame : (Char.ofNat b.toNat).toLower = Char.ofNat b.toNat :=
        dif_neg (fun hlower => hupper (decide_eq_true hlower))
      rw [hsame, ← Option.some.inj h]
    · cases h

theorem valueChar_some {c : Char} (h : valueChar b = some c) : c = Char.ofNat b.toNat := by
  rw [valueChar] at h
  split at h
  · exact (Option.some.inj h).symm
  · cases h

theorem mapM_some_eq_map {A B : Type} {f : A → Option B} {g : A → B}
    (hfg : ∀ a b, f a = some b → b = g a) {as : List A} {bs : List B} (h : as.mapM f = some bs) :
    bs = as.map g := by
  induction as generalizing bs with
  | nil => exact (Option.some.inj h).symm
  | cons a as ih =>
    rw [List.mapM_cons] at h
    obtain ⟨b, hb, h⟩ := Option.bind_eq_some_iff.mp h
    obtain ⟨rest, hrest, h⟩ := Option.bind_eq_some_iff.mp h
    rw [← Option.some.inj h, hfg a b hb, ih hrest]
    rfl

theorem headerName_some {name : Bytes} {n : String} (h : headerName name = some n) :
    n = lowerName name := by
  rw [headerName] at h
  split at h
  · cases h
  · obtain ⟨cs, hcs, rfl⟩ := Option.map_eq_some_iff.mp h
    rw [mapM_some_eq_map (fun _ _ => nameChar_some) hcs]
    rfl

theorem headerValue_some {value : Bytes} {v : String} (h : headerValue value = some v) :
    v = latin1 value := by
  obtain ⟨cs, hcs, rfl⟩ := Option.map_eq_some_iff.mp h
  rw [mapM_some_eq_map (fun _ _ => valueChar_some) hcs]
  rfl

theorem Valid.validHeaders (h : st.Valid) :
    st.validHeaders = st.headers.map (fun e => (lowerName e.1, latin1 e.2)) := by
  rw [AsgiResponseStart.validHeaders, ← List.filterMap_eq_map]
  refine List.filterMap_congr (fun e he => ?_)
  obtain ⟨hname, hvalue⟩ := h.headers e he
  obtain ⟨n, hn⟩ := Option.isSome_iff_exists.mp hname
  obtain ⟨v, hv⟩ := Option.isSome_iff_exists.mp hvalue
  rw [hn, hv, headerName_some hn, headerValue_some hv]
  rfl

theorem Valid.carried (h : st.Valid) (name : String) :
    (st.validHeaders.filter (fun e => e.1 = name)).map Prod.snd = st.carried name := by
  rw [h.validHeaders, AsgiResponseStart.carried]
  generalize st.headers = headers
  induction headers with
  | nil => rfl
  | cons e headers ih =>
    rw [List.map_cons, List.filter_cons, List.filterMap_cons]
    by_cases hname : lowerName e.1 = name
    · simp only [hname, decide_true, if_true, List.map_cons]
      rw [← ih]
    · simp only [hname, decide_false, Bool.false_eq_true, if_false]
      exact ih

theorem Valid.isEventStream (h : st.Valid) :
    st.isEventStream = (st.carried "content-type").any
      (fun v => "text/event-stream".toList.isPrefixOf v.toList) := by
  rw [AsgiResponseStart.isEventStream, ← h.carried, List.any_map, List.any_filter]
  rfl

theorem Valid.build_status (h : st.Valid) : st.build.status = st.status.toNat := if_pos h.status

theorem Valid.build_values (h : st.Valid) (name : String) :
    st.build.headers.values name = st.shown name := by
  have hcarried : (st.validHeaders.foldl (fun map e => map.append e.1 e.2) ⟨[]⟩ :
      HeaderMap).values name = st.carried name := by
    rw [HeaderMap.values_foldl_append, h.carried]
    rfl
  rw [build, shown, ← h.isEventStream]
  cases st.isEventStream with
  | false =>
    simp only [Bool.false_eq_true, if_false]
    exact hcarried
  | true =>
    simp only [if_true]
    rw [HeaderMap.values_foldl_insert _ _ _ (by decide), hcarried]

end AsgiResponseStart

namespace Message

variable {m : Message} {e : SendError} {st : AsgiResponseStart} {b : Bytes} {more : Bool}

def startOf (m : Message) : Option AsgiResponseStart :=
  match m.parse with
  | .ok (.start st) => some st
  | _ => none

def bodyOf (m : Message) : Option (Bytes × Bool) :=
  match m.parse with
  | .ok (.body payload more) => some (payload, more)
  | _ => none

def payload (m : Message) : Bytes := (m.bodyOf.map Prod.fst).getD []

def closes (m : Message) : Bool := m.bodyOf.any (fun b => !b.2)

theorem startOf_of_error (h : m.parse = .error e) : m.startOf = none := by
  rw [startOf, h]

theorem bodyOf_of_error (h : m.parse = .error e) : m.bodyOf = none := by
  rw [bodyOf, h]

theorem startOf_of_start (h : m.parse = .ok (.start st)) : m.startOf = some st := by
  rw [startOf, h]

theorem bodyOf_of_start (h : m.parse = .ok (.start st)) : m.bodyOf = none := by
  rw [bodyOf, h]

theorem startOf_of_body (h : m.parse = .ok (.body b more)) : m.startOf = none := by
  rw [startOf, h]

theorem bodyOf_of_body (h : m.parse = .ok (.body b more)) : m.bodyOf = some (b, more) := by
  rw [bodyOf, h]

end Message

open Message

section

def firstStart (ms : List Message) : Option AsgiResponseStart := ms.findSome? startOf

def afterStart (ms : List Message) : List Message := ms.dropWhile (fun m => m.startOf.isNone)

def payloads : List Message → Bytes
  | [] => []
  | m :: ms => m.payload ++ if m.closes then [] else payloads ms

-- the body the messages describe, and whether they close it
def bodyText (ms : List Message) : Bytes := payloads (afterStart ms)

def closed (ms : List Message) : Bool := (afterStart ms).any closes

variable (ms : List Message) (m : Message)

theorem firstStart_cons (a : Message) :
    firstStart (a :: ms) = a.startOf.or (firstStart ms) := by
  rw [firstStart, List.findSome?_cons]
  cases a.startOf <;> rfl

theorem firstStart_concat : firstStart (ms ++ [m]) = (firstStart ms).or m.startOf := by
  rw [firstStart, List.findSome?_append]
  cases hm : m.startOf <;> simp [firstStart, hm]

theorem afterStart_cons (a : Message) :
    afterStart (a :: ms) = if a.startOf.isNone then afterStart ms else a :: ms := by
  rw [afterStart, List.dropWhile_cons]
  rfl

theorem afterStart_concat : afterStart (ms ++ [m]) =
    if (firstStart ms).isSome then afterStart ms ++ [m]
    else if m.startOf.isSome then [m] else [] := by
  induction ms with
  | nil => cases hm : m.startOf <;> simp [afterStart, firstStart, hm]
  | cons a ms ih =>
    rw [List.cons_append, afterStart_cons, afterStart_cons, ih, firstStart_cons]
    cases a.startOf <;> rfl

theorem afterStart_of_none {ms : List Message} (h : firstStart ms = none) : afterStart ms = [] := by
  induction ms with
  | nil => rfl
  | cons a ms ih =>
    rw [firstStart_cons, Option.or_eq_none_iff] at h
    rw [afterStart_cons, h.1]
    exact ih h.2

theorem payloads_concat : payloads (ms ++ [m]) =
    if ms.any closes then payloads ms else payloads ms ++ m.payload := by
  induction ms with
  | nil => simp [payloads]
  | cons a ms ih =>
    rw [List.cons_append, payloads, payloads, ih, List.any_cons]
    cases a.closes with
    | true => rfl
    | false =>
      simp only [Bool.false_or, Bool.false_eq_true, if_false]
      split
      · rfl
      · rw [List.append_assoc]

theorem bodyText_of_none {ms : List Message} (h : firstStart ms = none) : bodyText ms = [] := by
  rw [bodyText, afterStart_of_none h]
  rfl

theorem closed_of_none {ms : List Message} (h : firstStart ms = none) : closed ms = false := by
  rw [closed, afterStart_of_none h]
  rfl

theorem payload_of_no_body {m : Message} (h : m.bodyOf = none) : m.payload = [] := by
  rw [payload, h]
  rfl

theorem closes_of_no_body {m : Message} (h : m.bodyOf = none) : m.closes = false := by
  rw [closes, h]
  rfl

variable {ms m}

theorem bodyText_concat (h : (firstStart ms).isSome) : bodyText (ms ++ [m]) =
    if closed ms then bodyText ms else bodyText ms ++ m.payload := by
  rw [bodyText, afterStart_concat, if_pos h, payloads_concat]
  rfl

theorem closed_concat (h : (firstStart ms).isSome) : closed (ms ++ [m]) = (closed ms || m.closes) := by
  rw [closed, afterStart_concat, if_pos h, List.any_append]
  simp [closed]

theorem bodyText_concat_of_no_body (h : m.bodyOf = none) : bodyText (ms ++ [m]) = bodyText ms := by
  cases hstart : firstStart ms with
  | some st =>
    rw [bodyText_concat (hstart ▸ rfl), payload_of_no_body h, List.append_nil, ite_self]
  | none =>
    rw [bodyText_of_none hstart, bodyText, afterStart_concat, hstart]
    simp only [Option.isSome_none, Bool.false_eq_true, if_false]
    split
    · simp [payloads, payload_of_no_body h]
    · rfl

theorem closed_concat_of_no_body (h : m.bodyOf = none) : closed (ms ++ [m]) = closed ms := by
  cases hstart : firstStart ms with
  | some st => rw [closed_concat (hstart ▸ rfl), closes_of_no_body h, Bool.or_false]
  | none =>
    rw [closed_of_none hstart, closed, afterStart_concat, hstart]
    simp only [Option.isSome_none, Bool.false_eq_true, if_false]
    split
    · simp [closes_of_no_body h]
    · rfl

end

end DjangoBolt.Asgi
