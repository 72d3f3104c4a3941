import DjangoBolt.Foundation.Lines
import DjangoBolt.Foundation.Splitting
import DjangoBolt.Foundation.Utf8

namespace DjangoBolt.EventStream

structure Labels where
  event : Option String
  id : Option String
  retry : Option Int
  comment : Option String
  deriving DecidableEq, Repr

def Labels.none : Labels := ⟨.none, .none, .none, .none⟩

structure EventFields (V : Type) extends Labels where
  data : Option V
  rawData : Option String

def EventFields.postInit {V : Type} (f : EventFields V) : Except String Unit :=
  if f.data.isSome && f.rawData.isSome then
    .error ("Cannot set both 'data' and 'raw_data' on the same " ++
      "ServerSentEvent. Use 'data' for JSON-serialized payloads " ++
      "or 'raw_data' for pre-formatted strings.")
  else if f.id.any (fun i => i.toList.contains (Char.ofNat 0)) then
    .error "SSE 'id' must not contain null characters"
  else if f.retry.any (fun n => n < 0) then
    .error "SSE 'retry' must be a non-negative integer"
  else .ok ()

structure ServerSentEvent (V : Type) extends EventFields V where
  accepted : toEventFields.postInit = .ok ()

-- the boundaries of `str.splitlines`
def isLineBoundary (c : Char) : Bool :=
  [10, 11, 12, 13, 28, 29, 30, 133, 8232, 8233].contains c.toNat

def splitlines (s : String) : List String :=
  (Lines.lines isLineBoundary s.toList).map String.ofList

inductive Raised (ε : Type) where
  | encode (e : ε)
  | unicodeDecode
  deriving DecidableEq, Repr

section

variable {ε : Type}

def dataLines (dataStr : Option String) (dataBytes : Option ByteArray) :
    Except (Raised ε) (List String) :=
  match dataStr, dataBytes with
  | some s, _ => .ok (splitlines s)
  | none, some b =>
      match String.fromUTF8? b with
      | none => .error .unicodeDecode
      | some s => .ok (splitlines s)
  | none, none => .ok []

def eventLines (l : Labels) (data : List String) : List String :=
  ((l.comment.map splitlines).getD []).map (": " ++ ·) ++
    (l.event.map ("event: " ++ ·)).toList ++
    data.map ("data: " ++ ·) ++
    (l.id.map ("id: " ++ ·)).toList ++
    (l.retry.map (fun n => "retry: " ++ toString n)).toList

def formatByLines (dataStr : Option String) (dataBytes : Option ByteArray) (l : Labels) :
    Except (Raised ε) ByteArray :=
  match dataLines dataStr dataBytes with
  | .error e => .error e
  | .ok data => .ok ("\n".intercalate (eventLines l data ++ ["", ""])).toUTF8

def formatSseEvent (dataStr : Option String) (dataBytes : Option ByteArray) (l : Labels) :
    Except (Raised ε) ByteArray :=
  match dataBytes with
  | some b =>
      if l = .none then .ok ("data: ".toUTF8 ++ b ++ "\n\n".toUTF8)
      else formatByLines dataStr dataBytes l
  | none => formatByLines dataStr dataBytes l

end

-- `none` is Python's None; a value that `_json.encode` cannot take raises
variable {V ε : Type} (encode : Option V → Except ε String)

def encodeBytes (v : Option V) : Except (Raised ε) ByteArray :=
  match encode v with
  | .error e => .error (.encode e)
  | .ok text => .ok text.toUTF8

def frameEvent
    (format : Option String → Option ByteArray → Labels → Except (Raised ε) ByteArray)
    (e : ServerSentEvent V) : Except (Raised ε) ByteArray :=
  match e.rawData with
  | some raw => format (some raw) none e.toLabels
  | none =>
      match e.data with
      | none => format none none e.toLabels
      | some v =>
          match encodeBytes encode (some v) with
          | .error r => .error r
          | .ok b => format none (some b) e.toLabels

inductive Chunk (V : Type) where
  | bytes (b : ByteArray)
  | text (s : String)
  | event (e : ServerSentEvent V)
  | object (v : Option V)

def serializeSseChunk : Chunk V → Except (Raised ε) ByteArray
  | .bytes b => .ok b
  | .text s => .ok s.toUTF8
  | .event e => frameEvent encode formatSseEvent e
  | .object v =>
      match encodeBytes encode v with
      | .error r => .error r
      | .ok b => formatSseEvent none (some b) .none

-- the event-stream format, as a client reads it from the start of a stream

def byteOrderMark : Char := Char.ofNat 65279

def isStreamBreak (c : Char) : Bool := c = '\n' || c = '\r'

inductive StreamLine where
  | blank
  | comment
  | field (name value : String)
  deriving DecidableEq, Repr

def StreamLine.field? : StreamLine → Option (String × String)
  | .field name value => some (name, value)
  | _ => none

def readLine (l : List Char) : StreamLine :=
  if l = [] then .blank
  else
    match l.span (fun c => c ≠ ':') with
    | (_, []) => .field (String.ofList l) ""
    | ([], _ :: _) => .comment
    | (name, _ :: ' ' :: value) => .field (String.ofList name) (String.ofList value)
    | (name, _ :: value) => .field (String.ofList name) (String.ofList value)

structure StreamEvent where
  name : String
  data : String
  lastEventId : String
  deriving DecidableEq, Repr

structure StreamState where
  data : List Char
  name : String
  idBuffer : String
  lastEventId : String
  reconnectionTime : Option Nat
  events : List StreamEvent
  deriving DecidableEq, Repr

def StreamState.start : StreamState := ⟨[], "", "", "", none, []⟩

def StreamState.readField (s : StreamState) (name value : String) : StreamState :=
  if name = "event" then { s with name := value }
  else if name = "data" then { s with data := s.data ++ value.toList ++ ['\n'] }
  else if name = "id" then
    if value.toList.contains (Char.ofNat 0) then s else { s with idBuffer := value }
  else if name = "retry" then
    if value.toList ≠ [] && value.toList.all Char.isDigit then
      { s with reconnectionTime := some (Nat.ofDigitChars 10 value.toList 0) }
    else s
  else s

def withoutLastFeed (data : List Char) : List Char :=
  if data.getLast? = some '\n' then data.dropLast else data

def StreamState.dispatch (s : StreamState) : StreamState :=
  if s.data = [] then { s with lastEventId := s.idBuffer, data := [], name := "" }
  else
    { s with
      lastEventId := s.idBuffer
      data := []
      name := ""
      events := s.events ++
        [⟨if s.name = "" then "message" else s.name, String.ofList (withoutLastFeed s.data),
          s.idBuffer⟩] }

def StreamState.step (s : StreamState) : StreamLine → StreamState
  | .blank => s.dispatch
  | .comment => s
  | .field name value => s.readField name value

def streamLines (bytes : ByteArray) : Option (List StreamLine) :=
  (String.fromUTF8? bytes).map (fun text =>
    (Lines.closedLines isStreamBreak
      (if text.toList.head? = some byteOrderMark then text.toList.tail
        else text.toList)).map readLine)

def parseStream (bytes : ByteArray) : Option StreamState :=
  (streamLines bytes).map (fun ls => ls.foldl StreamState.step .start)

def streamFields (bytes : ByteArray) : Option (List (String × String)) :=
  (streamLines bytes).map (fun ls => ls.filterMap StreamLine.field?)

end DjangoBolt.EventStream

namespace DjangoBolt.EventStream

section

variable {V ε : Type} (encode : Option V → Except ε String)

def ServerSentEvent.payload (e : ServerSentEvent V) : Except ε (Option String) :=
  match e.rawData, e.data with
  | some raw, _ => .ok (some raw)
  | none, none => .ok none
  | none, some v => (encode (some v)).map some

def textLines (text : String) : List String :=
  (Lines.allLines isStreamBreak text.toList).map String.ofList

def normalized (text : String) : String := "\n".intercalate (textLines text)

def labelledFields (l : Labels) (data : List String) : List (String × String) :=
  (l.event.map (fun v => ("event", v))).toList ++ data.map (fun v => ("data", v)) ++
    (l.id.map (fun v => ("id", v))).toList ++
    (l.retry.map (fun n => ("retry", toString n))).toList

def expectedEvents (l : Labels) (payload : Option String) : List StreamEvent :=
  (payload.map (fun text => ⟨l.event.getD "message", normalized text, l.id.getD ""⟩)).toList

structure Framed (l : Labels) (payload : Option String) (out : ByteArray) : Prop where
  parsed : (parseStream out).map (fun s => (s.events, s.lastEventId, s.reconnectionTime)) =
    some (expectedEvents l payload, l.id.getD "", l.retry.map Int.toNat)
  fields : streamFields out = some (labelledFields l ((payload.map textLines).getD []))
  blank : out = "\n".toUTF8 ∨ ∃ text : String, out = (text ++ "\n\n").toUTF8

def FramingLaw (e : ServerSentEvent V) : Prop :=
  ∀ payload, e.payload encode = .ok payload →
    ∃ out general, serializeSseChunk encode (.event e) = .ok out ∧
      frameEvent encode formatByLines e = .ok general ∧
      Framed e.toLabels payload out ∧ parseStream general = parseStream out

end

def Unbroken (brk : Char → Bool) (text : String) : Prop := ∀ c ∈ text.toList, brk c = false

structure Clean (l : Labels) (byLines : Bool) (payload : Option String) : Prop where
  event : ∀ name, l.event = some name →
    Unbroken isStreamBreak name ∧ (payload.isSome → name ≠ "")
  id : ∀ i, l.id = some i → Unbroken isStreamBreak i
  lines : byLines = true → ∀ text, payload = some text →
    (∀ c ∈ text.toList, isLineBoundary c = true → isStreamBreak c = true) ∧
      ∃ c, text.toList.getLast? = some c ∧ isStreamBreak c = false
  whole : byLines = false → ∀ text, payload = some text →
    text ≠ "" ∧ Unbroken isLineBoundary text

section

variable {text : String}

theorem isStreamBreak_boundary (c : Char) (h : isStreamBreak c = true) :
    isLineBoundary c = true := by
  simp only [isStreamBreak, Bool.or_eq_true, decide_eq_true_eq] at h
  rcases h with rfl | rfl
  · rfl
  · rfl

theorem Unbroken.of_boundary (h : Unbroken isLineBoundary text) : Unbroken isStreamBreak text := by
  intro c hc
  cases hb : isStreamBreak c with
  | false => rfl
  | true => exact absurd (isStreamBreak_boundary c hb) (by rw [h c hc]; exact Bool.false_ne_true)

theorem unbroken_splitlines {s line : String} (h : line ∈ splitlines s) :
    Unbroken isLineBoundary line := by
  obtain ⟨l, hl, rfl⟩ := List.mem_map.mp h
  intro c hc
  rw [String.toList_ofList] at hc
  exact Lines.mem_lines hl hc

theorem streamLines_toUTF8 (h : text.toList.head? ≠ some byteOrderMark) :
    streamLines text.toUTF8 =
      some ((Lines.closedLines isStreamBreak text.toList).map readLine) := by
  rw [streamLines, Utf8.fromUTF8_toUTF8, Option.map_some, if_neg h]

theorem readLine_field {name : String} (hname : name ≠ "") (hcolon : ':' ∉ name.toList)
    (value : List Char) :
    readLine (name.toList ++ ':' :: ' ' :: value) = .field name (String.ofList value) := by
  have hne : name.toList ≠ [] := fun h => hname (String.toList_eq_nil_iff.mp h)
  rw [readLine, if_neg (by simp), Splitting.span_append hcolon]
  cases hl : name.toList with
  | nil => exact absurd hl hne
  | cons c cs =>
    have hname : String.ofList (c :: cs) = name := by rw [← hl, String.ofList_toList]
    simp only [hname]

end

section

variable {l : Labels} {data : List String} {w : String × String} {name : String}

def fieldNames : List String := ["event", "data", "id", "retry"]

def fieldLine (w : String × String) : List Char := w.1.toList ++ ':' :: ' ' :: w.2.toList

def commentLine (s : String) : List Char := ':' :: ' ' :: s.toList

def Labels.comments (l : Labels) : List String := (l.comment.map splitlines).getD []

def linesText (l : Labels) (data : List String) : String :=
  "\n".intercalate (eventLines l data ++ ["", ""])

def fieldsText (ws : List (String × String)) : List Char :=
  Lines.unlines (ws.map fieldLine ++ [[]])

def fieldsOf (cs : List Char) : List (String × String) :=
  ((Lines.closedLines isStreamBreak cs).map readLine).filterMap StreamLine.field?

theorem labelledFields_names (hw : w ∈ labelledFields l data) : w.1 ∈ fieldNames := by
  simp only [labelledFields, List.mem_append, Option.mem_toList,
    Option.map_eq_some_iff, List.mem_map] at hw
  rcases hw with ((⟨v, -, rfl⟩ | ⟨v, -, rfl⟩) | ⟨v, -, rfl⟩) | ⟨v, -, rfl⟩
  all_goals simp [fieldNames]

theorem fieldNames_plain (h : name ∈ fieldNames) :
    name ≠ "" ∧ ∀ c ∈ name.toList, c ≠ ':' ∧ isStreamBreak c = false := by
  have hall : ∀ n ∈ fieldNames, n ≠ "" ∧ ∀ c ∈ n.toList, c ≠ ':' ∧ isStreamBreak c = false := by
    simp [fieldNames, isStreamBreak]
  exact hall name h

theorem readLine_named (h : name ∈ fieldNames) (value : List Char) :
    readLine (name.toList ++ ':' :: ' ' :: value) = .field name (String.ofList value) :=
  readLine_field (fieldNames_plain h).1 (fun hc => ((fieldNames_plain h).2 _ hc).1 rfl) value

theorem filterMap_field (name value : String) (ls : List StreamLine) :
    (StreamLine.field name value :: ls).filterMap StreamLine.field? =
      (name, value) :: ls.filterMap StreamLine.field? := rfl

theorem linesText_toList (l : Labels) (data : List String) :
    (linesText l data).toList =
      Lines.unlines (l.comments.map commentLine) ++ fieldsText (labelledFields l data) := by
  have hlines : (eventLines l data).map String.toList =
      l.comments.map commentLine ++ (labelledFields l data).map fieldLine := by
    simp [eventLines, labelledFields, Labels.comments, commentLine, fieldLine, Function.comp_def,
      Option.toList_map]
  have hblank : (eventLines l data ++ ["", ""]).map String.toList =
      (l.comments.map commentLine ++ (labelledFields l data).map fieldLine ++ [[]]) ++ [[]] := by
    rw [List.map_append, hlines]
    simp
  rw [linesText, String.toList_intercalate, hblank]
  have hsep : "\n".toList = ['\n'] := rfl
  rw [hsep, Lines.intercalate_blank, fieldsText, Lines.unlines, Lines.unlines, Lines.unlines,
    List.append_assoc, List.flatMap_append]

theorem unbroken_comments : ∀ c ∈ l.comments.map commentLine, ∀ d ∈ c, isStreamBreak d = false := by
  intro c hc d hd
  obtain ⟨s, hs, rfl⟩ := List.mem_map.mp hc
  simp only [commentLine, List.mem_cons] at hd
  rcases hd with rfl | rfl | hd
  · rfl
  · rfl
  · cases hl : l.comment with
    | none => simp [Labels.comments, hl] at hs
    | some text =>
      rw [Labels.comments, hl] at hs
      exact (unbroken_splitlines hs).of_boundary d hd

theorem closedLines_linesText (l : Labels) (data : List String) :
    Lines.closedLines isStreamBreak (linesText l data).toList =
      l.comments.map commentLine ++
        Lines.closedLines isStreamBreak (fieldsText (labelledFields l data)) := by
  rw [linesText_toList, Lines.closedLines_unlines rfl rfl unbroken_comments]

theorem fieldLine_unbroken (hw : w.1 ∈ fieldNames) (h : Unbroken isStreamBreak w.2) :
    ∀ c ∈ fieldLine w, isStreamBreak c = false := by
  intro c hc
  rw [fieldLine, List.mem_append, List.mem_cons, List.mem_cons] at hc
  rcases hc with hc | rfl | rfl | hc
  · exact ((fieldNames_plain hw).2 c hc).2
  · rfl
  · rfl
  · exact h c hc

theorem closedLines_fieldsText {A B : List (String × String)}
    (hA : ∀ w ∈ A, w.1 ∈ fieldNames ∧ Unbroken isStreamBreak w.2) :
    Lines.closedLines isStreamBreak (fieldsText (A ++ B)) =
      A.map fieldLine ++ Lines.closedLines isStreamBreak (fieldsText B) := by
  have hsplit : fieldsText (A ++ B) = Lines.unlines (A.map fieldLine) ++ fieldsText B := by
    simp [fieldsText, Lines.unlines]
  rw [hsplit, Lines.closedLines_unlines rfl rfl]
  intro c hc
  obtain ⟨w, hw, rfl⟩ := List.mem_map.mp hc
  exact fieldLine_unbroken (hA w hw).1 (hA w hw).2

theorem fieldsOf_fieldsText {A B : List (String × String)}
    (hA : ∀ w ∈ A, w.1 ∈ fieldNames ∧ Unbroken isStreamBreak w.2) :
    fieldsOf (fieldsText (A ++ B)) = A ++ fieldsOf (fieldsText B) := by
  rw [fieldsOf, closedLines_fieldsText hA, List.map_append, List.filterMap_append, fieldsOf]
  congr 1
  clear B
  induction A with
  | nil => rfl
  | cons w A ih =>
    obtain ⟨hw, hA⟩ := List.forall_mem_cons.mp hA
    rw [List.map_cons, List.map_cons, fieldLine, readLine_named hw.1, String.ofList_toList,
      filterMap_field, ih hA]

theorem fieldsOf_next (hw : w.1 ∈ fieldNames) (B : List (String × String)) :
    ∃ rest, fieldsOf (fieldsText (w :: B)) =
      (w.1, String.ofList (w.2.toList.takeWhile (fun c => !isStreamBreak c))) :: rest := by
  have htext : fieldsText (w :: B) =
      (w.1.toList ++ [':', ' ']) ++ w.2.toList ++ '\n' :: fieldsText B := by
    simp [fieldsText, Lines.unlines, fieldLine]
  have hname : ∀ c ∈ w.1.toList ++ [':', ' '], isStreamBreak c = false := by
    refine List.forall_mem_append.mpr ⟨fun c hc => ((fieldNames_plain hw).2 c hc).2, ?_⟩
    simp [isStreamBreak]
  have hcr : isStreamBreak '\r' = true := rfl
  have hlf : isStreamBreak '\n' = true := rfl
  obtain ⟨ls, hls⟩ := Lines.closedLines_cons hcr hlf hname w.2.toList (fieldsText B)
  refine ⟨(ls.map readLine).filterMap StreamLine.field?, ?_⟩
  rw [fieldsOf, htext, hls, List.map_cons, List.append_assoc, List.cons_append, List.cons_append,
    List.nil_append, readLine_named hw, filterMap_field]

theorem unbroken_of_takeWhile {v : String}
    (h : String.ofList (v.toList.takeWhile (fun c => !isStreamBreak c)) = v) :
    Unbroken isStreamBreak v := by
  have hlist := congrArg String.toList h
  rw [String.toList_ofList] at hlist
  intro c hc
  have := List.takeWhile_eq_self_iff.mp hlist c hc
  simpa using this

theorem fieldsOf_end : fieldsOf (fieldsText []) = [] := by decide

theorem linesText_head (l : Labels) (data : List String) :
    (linesText l data).toList.head? ≠ some byteOrderMark := by
  rw [linesText_toList]
  cases l.comments with
  | cons s comments => exact (by decide : some ':' ≠ some byteOrderMark)
  | nil =>
    cases hws : labelledFields l data with
    | nil => exact (by decide : some '\n' ≠ some byteOrderMark)
    | cons w ws =>
      have hall : ∀ n ∈ fieldNames, n.toList.head?.any (fun c => c ≠ byteOrderMark) := by decide
      have hname := hall w.1 (labelledFields_names (hws ▸ List.mem_cons_self))
      cases hn : w.1.toList with
      | nil => rw [hn] at hname; cases hname
      | cons c cs =>
        rw [hn] at hname
        simp only [List.head?_cons, Option.any_some, decide_eq_true_eq] at hname
        simp [fieldsText, Lines.unlines, fieldLine, hn, hname]

theorem streamLines_linesText (l : Labels) (data : List String) :
    streamLines (linesText l data).toUTF8 =
      some (l.comments.map (fun _ => StreamLine.comment) ++
        (Lines.closedLines isStreamBreak (fieldsText (labelledFields l data))).map readLine) := by
  rw [streamLines_toUTF8 (linesText_head l data), closedLines_linesText, List.map_append,
    List.map_map]
  rfl

theorem streamFields_linesText (l : Labels) (data : List String) :
    streamFields (linesText l data).toUTF8 =
      some (fieldsOf (fieldsText (labelledFields l data))) := by
  have hnone : (l.comments.map (fun _ => StreamLine.comment)).filterMap StreamLine.field? = [] := by
    rw [List.filterMap_map]
    exact List.filterMap_eq_nil_iff.mpr (fun _ _ => rfl)
  rw [streamFields, streamLines_linesText, Option.map_some, List.filterMap_append, hnone]
  rfl

end

section

variable {l : Labels} {data : List String}

def readFields (s : StreamState) (ws : List (String × String)) : StreamState :=
  ws.foldl (fun s w => s.readField w.1 w.2) s

theorem run_comments (comments : List String) (s : StreamState) :
    (comments.map (fun _ => StreamLine.comment)).foldl StreamState.step s = s := by
  induction comments with
  | nil => rfl
  | cons c comments ih => exact ih

theorem run_fields {ws : List (String × String)} (hws : ∀ w ∈ ws, w.1 ∈ fieldNames)
    (s : StreamState) :
    ((ws.map fieldLine).map readLine).foldl StreamState.step s = readFields s ws := by
  induction ws generalizing s with
  | nil => rfl
  | cons w ws ih =>
    obtain ⟨hw, hws⟩ := List.forall_mem_cons.mp hws
    rw [List.map_cons, List.map_cons, fieldLine, readLine_named hw, String.ofList_toList,
      List.foldl_cons, ih hws]
    rfl

theorem parseStream_linesText
    (h : ∀ w ∈ labelledFields l data, Unbroken isStreamBreak w.2) :
    parseStream (linesText l data).toUTF8 =
      some (readFields .start (labelledFields l data)).dispatch := by
  have hws := fun w hw => (⟨labelledFields_names hw, h w hw⟩ :
    w.1 ∈ fieldNames ∧ Unbroken isStreamBreak w.2)
  have hclosed := closedLines_fieldsText (B := []) hws
  have hend : Lines.closedLines isStreamBreak (fieldsText []) = [[]] := by decide
  rw [List.append_nil, hend] at hclosed
  rw [parseStream, streamLines_linesText, Option.map_some, hclosed, List.foldl_append,
    run_comments, List.map_append, List.foldl_append, run_fields (fun w hw => (hws w hw).1)]
  rfl

theorem readFields_append (s : StreamState) (ws vs : List (String × String)) :
    readFields s (ws ++ vs) = readFields (readFields s ws) vs := List.foldl_append

theorem readFields_data (s : StreamState) (data : List String) :
    readFields s (data.map (fun v => ("data", v))) =
      { s with data := s.data ++ Lines.unlines (data.map String.toList) } := by
  induction data generalizing s with
  | nil => simp [readFields, Lines.unlines]
  | cons d data ih =>
    rw [List.map_cons, readFields, List.foldl_cons, ← readFields, ih]
    simp [StreamState.readField, Lines.unlines]

theorem toString_retry {n : Int} (h : 0 ≤ n) : (toString n).toList = Nat.toDigits 10 n.toNat := by
  obtain ⟨m, rfl⟩ := Int.eq_ofNat_of_zero_le h
  have hnat : toString (m : Int) = toString m := rfl
  rw [hnat, Nat.toString_eq_repr, Nat.toList_repr]
  rfl

theorem readField_retry {n : Int} (h : 0 ≤ n) (s : StreamState) :
    s.readField "retry" (toString n) = { s with reconnectionTime := some n.toNat } := by
  have hne : Nat.toDigits 10 n.toNat ≠ [] := Nat.toDigits_ne_nil
  have hdigits : (Nat.toDigits 10 n.toNat).all Char.isDigit = true :=
    List.all_eq_true.mpr (fun c hc =>
      Nat.isDigit_of_mem_toDigits (by decide : 0 < 10) (Nat.le_refl 10) hc)
  have hnone : ¬("retry" = "event" ∨ "retry" = "data" ∨ "retry" = "id") := by decide
  simp only [not_or] at hnone
  rw [StreamState.readField, if_neg hnone.1, if_neg hnone.2.1, if_neg hnone.2.2, if_pos rfl,
    toString_retry h, if_pos (by simp [hne, hdigits]), Nat.ofDigitChars_ten_toDigits]

def afterFields (l : Labels) (data : List String) : StreamState :=
  ⟨Lines.unlines (data.map String.toList), l.event.getD "", l.id.getD "", "",
    l.retry.map Int.toNat, []⟩

theorem readFields_labelled (hid : ∀ i, l.id = some i → Char.ofNat 0 ∉ i.toList)
    (hretry : ∀ n, l.retry = some n → 0 ≤ n) (data : List String) :
    readFields .start (labelledFields l data) = afterFields l data := by
  obtain ⟨event, id, retry, comment⟩ := l
  rw [labelledFields, readFields_append, readFields_append, readFields_append]
  have hevent : readFields .start (event.map (fun v => ("event", v))).toList =
      { StreamState.start with name := event.getD "" } := by
    cases event <;> rfl
  rw [hevent, readFields_data]
  have hids : ∀ s : StreamState, s.idBuffer = "" →
      readFields s (id.map (fun v => ("id", v))).toList = { s with idBuffer := id.getD "" } := by
    intro s hs
    cases id with
    | none => exact (by rw [← hs]; rfl)
    | some i =>
      have hnull := hid i rfl
      simp [readFields, StreamState.readField, hnull]
  rw [hids _ rfl]
  cases retry with
  | none => rfl
  | some n =>
    exact readField_retry (hretry n rfl) _

theorem dispatch_events (l : Labels) (data : List String) :
    (afterFields l data).dispatch.events =
      if data = [] then []
      else [⟨if l.event.getD "" = "" then "message" else l.event.getD "", "\n".intercalate data,
        l.id.getD ""⟩] := by
  cases data with
  | nil => rfl
  | cons d data =>
    have hne : (d :: data).map String.toList ≠ [] := List.cons_ne_nil _ _
    have hdata : (afterFields l (d :: data)).data ≠ [] := by
      rw [afterFields, Lines.unlines_eq hne]
      exact List.append_ne_nil_of_right_ne_nil _ (List.cons_ne_nil _ _)
    have htext : String.ofList (withoutLastFeed (Lines.unlines ((d :: data).map String.toList))) =
        "\n".intercalate (d :: data) := by
      rw [← String.toList_inj, String.toList_ofList, String.toList_intercalate,
        Lines.unlines_eq hne, withoutLastFeed, List.getLast?_concat, if_pos rfl,
        List.dropLast_concat]
      rfl
    rw [StreamState.dispatch, if_neg hdata, if_neg (List.cons_ne_nil _ _), ← htext]
    rfl

theorem dispatch_labels (l : Labels) (data : List String) :
    (afterFields l data).dispatch.lastEventId = l.id.getD "" ∧
      (afterFields l data).dispatch.reconnectionTime = l.retry.map Int.toNat := by
  rw [StreamState.dispatch]
  split
  · exact ⟨rfl, rfl⟩
  · exact ⟨rfl, rfl⟩

end

section

variable {l : Labels} {payload : Option String} {data other : List String}

theorem splitlines_eq_textLines (text : String) :
    splitlines text = textLines text ↔
      (∀ c ∈ text.toList, isLineBoundary c = true → isStreamBreak c = true) ∧
        ∃ c, text.toList.getLast? = some c ∧ isStreamBreak c = false := by
  rw [splitlines, textLines, ← Lines.chunks_eq_pieces_iff isStreamBreak_boundary rfl rfl]
  exact ⟨fun h => List.map_injective_iff.mpr (fun a b => String.ofList_injective) h, congrArg _⟩

theorem unbroken_retry {n : Int} (h : 0 ≤ n) : Unbroken isStreamBreak (toString n) := by
  intro c hc
  rw [toString_retry h] at hc
  have hdigit := Nat.isDigit_of_mem_toDigits (by decide : 0 < 10) (Nat.le_refl 10) hc
  cases hb : isStreamBreak c with
  | false => rfl
  | true =>
    simp only [isStreamBreak, Bool.or_eq_true, decide_eq_true_eq] at hb
    rcases hb with rfl | rfl
    · cases hdigit
    · cases hdigit

theorem unbroken_labelled {data : List String} (hretry : ∀ n, l.retry = some n → 0 ≤ n)
    (hevent : ∀ name, l.event = some name → Unbroken isStreamBreak name)
    (hid : ∀ i, l.id = some i → Unbroken isStreamBreak i)
    (hdata : ∀ d ∈ data, Unbroken isStreamBreak d) :
    ∀ w ∈ labelledFields l data, Unbroken isStreamBreak w.2 := by
  intro w hw
  simp only [labelledFields, List.mem_append, Option.mem_toList, Option.map_eq_some_iff,
    List.mem_map] at hw
  rcases hw with ((⟨v, hv, rfl⟩ | ⟨v, hv, rfl⟩) | ⟨v, hv, rfl⟩) | ⟨v, hv, rfl⟩
  · exact hevent v hv
  · exact hdata v hv
  · exact hid v hv
  · exact unbroken_retry (hretry v hv)

theorem data_prefix {x y : String} {X Y : List (String × String)}
    (h : data.map (fun v => ("data", v)) ++ ("id", x) :: X =
      other.map (fun v => ("data", v)) ++ ("id", y) :: Y) : data = other ∧ x = y := by
  induction data generalizing other with
  | nil =>
    cases other with
    | nil => simp at h; exact ⟨rfl, h.1⟩
    | cons o other => simp at h
  | cons d data ih =>
    cases other with
    | nil => simp at h
    | cons o other =>
      simp only [List.map_cons, List.cons_append, List.cons.injEq, Prod.mk.injEq, true_and] at h
      obtain ⟨hdata, hx⟩ := ih h.2
      exact ⟨by rw [h.1, hdata], hx⟩

theorem fields_eq (hretry : ∀ n, l.retry = some n → 0 ≤ n)
    (hdata : ∀ d ∈ data, Unbroken isStreamBreak d)
    (h : fieldsOf (fieldsText (labelledFields l data)) = labelledFields l other) :
    (∀ name, l.event = some name → Unbroken isStreamBreak name) ∧
      (∀ i, l.id = some i → Unbroken isStreamBreak i) ∧ data = other := by
  obtain ⟨event, id, retry, comment⟩ := l
  have hevent : ∀ name, event = some name → Unbroken isStreamBreak name := by
    rintro name rfl
    have hname : ("event", name).1 ∈ fieldNames := List.mem_cons_self
    obtain ⟨rest, hrest⟩ := fieldsOf_next hname (data.map (fun v => ("data", v)) ++
      ((id.map (fun v => ("id", v))).toList ++
        (retry.map (fun n => ("retry", toString n))).toList))
    rw [labelledFields, List.append_assoc, List.append_assoc, Option.map_some,
      Option.toList_some, List.singleton_append, hrest] at h
    simp only [labelledFields, Option.map_some, Option.toList_some, List.cons_append,
      List.cons.injEq, Prod.mk.injEq, true_and] at h
    exact unbroken_of_takeWhile h.1
  have hhead : ∀ w ∈ (event.map (fun v => ("event", v))).toList ++
      data.map (fun v => ("data", v)), w.1 ∈ fieldNames ∧ Unbroken isStreamBreak w.2 := by
    intro w hw
    rcases List.mem_append.mp hw with hw | hw
    · obtain ⟨v, hv, rfl⟩ := Option.map_eq_some_iff.mp (Option.mem_toList.mp hw)
      exact ⟨by simp [fieldNames], hevent v hv⟩
    · obtain ⟨v, hv, rfl⟩ := List.mem_map.mp hw
      exact ⟨by simp [fieldNames], hdata v hv⟩
  refine ⟨hevent, ?_⟩
  cases id with
  | some i =>
    have hname : ("id", i).1 ∈ fieldNames := by simp [fieldNames]
    obtain ⟨rest, hrest⟩ := fieldsOf_next hname
      (retry.map (fun n => ("retry", toString n))).toList
    rw [labelledFields, List.append_assoc, fieldsOf_fieldsText hhead, Option.map_some,
      Option.toList_some, List.singleton_append, hrest, labelledFields, List.append_assoc,
      List.append_assoc, List.append_assoc] at h
    obtain ⟨hsame, hi⟩ := data_prefix (List.append_cancel_left h)
    refine ⟨?_, hsame⟩
    rintro _ ⟨⟩
    exact unbroken_of_takeWhile hi
  | none =>
    have hall := unbroken_labelled (l := ⟨event, none, retry, comment⟩) hretry hevent
      (fun i hi => nomatch hi) hdata
    have hread := fieldsOf_fieldsText (B := [])
      (fun w hw => ⟨labelledFields_names hw, hall w hw⟩)
    rw [List.append_nil, fieldsOf_end, List.append_nil] at hread
    rw [hread, labelledFields, labelledFields] at h
    have hsame := List.append_cancel_left (List.append_cancel_right (List.append_cancel_right h))
    refine ⟨by simp, ?_⟩
    exact List.map_injective_iff.mpr (fun a b hab => congrArg Prod.snd hab) hsame

theorem textLines_ne_nil (text : String) : textLines text ≠ [] :=
  fun h => Lines.pieces_ne_nil _ (List.map_eq_nil_iff.mp h)

theorem linesText_blank (l : Labels) (data : List String) :
    (linesText l data).toUTF8 = "\n".toUTF8 ∨
      ∃ text : String, (linesText l data).toUTF8 = (text ++ "\n\n").toUTF8 := by
  rw [linesText]
  cases h : eventLines l data with
  | nil => exact .inl rfl
  | cons line lines =>
    refine .inr ⟨"\n".intercalate (line :: lines), ?_⟩
    rw [String.intercalate_append_of_ne_nil (List.cons_ne_nil _ _) (List.cons_ne_nil _ _),
      String.append_assoc]
    rfl

theorem framed_linesText {data : List String}
    (hid : ∀ i, l.id = some i → Char.ofNat 0 ∉ i.toList)
    (hretry : ∀ n, l.retry = some n → 0 ≤ n)
    (h : ∀ w ∈ labelledFields l data, Unbroken isStreamBreak w.2)
    (hdata : data = (payload.map textLines).getD []) :
    Framed l payload (linesText l data).toUTF8 ↔ (payload.isSome → l.event ≠ some "") := by
  have hstate := parseStream_linesText h
  rw [readFields_labelled hid hretry] at hstate
  have hfields : streamFields (linesText l data).toUTF8 =
      some (labelledFields l ((payload.map textLines).getD [])) := by
    have hread := fieldsOf_fieldsText (B := []) (fun w hw => ⟨labelledFields_names hw, h w hw⟩)
    rw [List.append_nil, fieldsOf_end, List.append_nil] at hread
    rw [streamFields_linesText, hread, ← hdata]
  have hevents : (afterFields l data).dispatch.events = expectedEvents l payload ↔
      (payload.isSome → l.event ≠ some "") := by
    rw [dispatch_events, hdata]
    cases payload with
    | none => simp [expectedEvents]
    | some text =>
      rw [Option.map_some, Option.getD_some, if_neg (textLines_ne_nil text)]
      cases hl : l.event with
      | none => simp [expectedEvents, normalized, hl]
      | some name =>
        by_cases hname : name = ""
        · simp [expectedEvents, hname, hl]
        · simp [expectedEvents, normalized, hname, hl]
  obtain ⟨hlast, hreconnect⟩ := dispatch_labels l data
  constructor
  · intro hf
    have hparsed := hf.parsed
    rw [hstate, Option.map_some, Option.some.injEq, Prod.mk.injEq] at hparsed
    exact hevents.mp hparsed.1
  · intro hname
    refine ⟨?_, hfields, linesText_blank l data⟩
    rw [hstate, Option.map_some, hevents.mpr hname, hlast, hreconnect]

theorem framed_byLines_iff (hid : ∀ i, l.id = some i → Char.ofNat 0 ∉ i.toList)
    (hretry : ∀ n, l.retry = some n → 0 ≤ n) :
    Framed l payload (linesText l ((payload.map splitlines).getD [])).toUTF8 ↔
      Clean l true payload := by
  have hlines : ∀ d ∈ (payload.map splitlines).getD [], Unbroken isStreamBreak d := by
    intro d hd
    cases payload with
    | none => exact absurd hd List.not_mem_nil
    | some text => exact (unbroken_splitlines hd).of_boundary
  constructor
  · intro hf
    have hread := hf.fields
    rw [streamFields_linesText, Option.some.injEq] at hread
    obtain ⟨hevent, hids, hsame⟩ := fields_eq hretry hlines hread
    have hname := (framed_linesText hid hretry
      (unbroken_labelled hretry hevent hids hlines) hsame).mp hf
    refine ⟨fun name hn => ⟨hevent name hn, fun hp he => ?_⟩, hids, fun _ text ht => ?_,
      fun h => nomatch h⟩
    · exact hname hp (he ▸ hn)
    · rw [ht] at hsame
      exact (splitlines_eq_textLines text).mp hsame
  · intro hc
    have hsame : (payload.map splitlines).getD [] = (payload.map textLines).getD [] := by
      cases payload with
      | none => rfl
      | some text => exact (splitlines_eq_textLines text).mpr (hc.lines rfl text rfl)
    exact (framed_linesText hid hretry
      (unbroken_labelled hretry (fun name hn => (hc.event name hn).1) hc.id hlines) hsame).mpr
      (fun hp he => (hc.event "" he).2 hp rfl)

end

section

variable {text : String} {P : String → Prop}

theorem Labels.none_event (v : String) (h : Labels.none.event = some v) :
    P v := nomatch (show (Option.none : Option String) = some v from h)

theorem Labels.none_id (v : String) (h : Labels.none.id = some v) :
    P v := nomatch (show (Option.none : Option String) = some v from h)

theorem Labels.none_retry {P : Int → Prop} (n : Int) (h : Labels.none.retry = some n) :
    P n := nomatch (show (Option.none : Option Int) = some n from h)

def wholeText (text : String) : String := "data: " ++ text ++ "\n\n"

theorem linesText_single (text : String) : linesText .none [text] = wholeText text := by
  rw [← String.toList_inj, linesText_toList]
  simp [wholeText, fieldsText, Lines.unlines, fieldLine, labelledFields, Labels.comments,
    Labels.none]

theorem length_field {l : List Char} {name value : String}
    (h : (readLine l).field? = some (name, value)) :
    name.toList.length + value.toList.length ≤ l.length := by
  rw [readLine] at h
  split at h
  · cases h
  · rcases Splitting.span_cases ':' l with ⟨-, hspan⟩ | ⟨a, rest, -, rfl, hspan⟩
    · rw [hspan] at h
      cases h
      simp
    · rw [hspan] at h
      split at h
      next heq => cases heq
      next => cases h
      next => cases h; simp_all; omega
      next => cases h; simp_all

theorem length_fields (ls : List (List Char)) :
    (((ls.map readLine).filterMap StreamLine.field?).map
        (fun w => w.1.toList.length + w.2.toList.length)).sum ≤ (ls.map List.length).sum := by
  induction ls with
  | nil => exact Nat.le_refl 0
  | cons l ls ih =>
    rw [List.map_cons, List.filterMap_cons]
    cases h : (readLine l).field? with
    | none => simp only [List.map_cons, List.sum_cons]; omega
    | some w =>
      have hw := length_field h
      simp only [List.map_cons, List.sum_cons]
      omega

theorem unbroken_of_pieces {text : String} (h : (textLines text).length ≤ 1) :
    Unbroken isStreamBreak text := by
  rcases Lines.break_cases isStreamBreak text.toList with hu | ⟨a, c, rest, htext, ha, hc⟩
  · exact hu
  · rw [textLines, List.length_map, Lines.allLines, htext, Lines.units_break rfl ha hc,
      Lines.pieces_append, List.length_cons] at h
    have := List.length_pos_iff.mpr (Lines.pieces_ne_nil
      (Lines.units isStreamBreak (decide (c = '\r')) rest))
    omega

theorem textLines_unbroken {text : String} (h : Unbroken isStreamBreak text) :
    textLines text = [text] := by
  rw [textLines, Lines.allLines, Lines.units_plain rfl h, Lines.pieces_plain]
  simp

theorem unbroken_of_wholeFields {text : String}
    (h : fieldsOf (fieldsText [("data", text)]) = (textLines text).map (fun v => ("data", v))) :
    Unbroken isStreamBreak text := by
  have hfields := length_fields (Lines.closedLines isStreamBreak (fieldsText [("data", text)]))
  have hclosed := Lines.sum_length_closed
    (Lines.units isStreamBreak false (fieldsText [("data", text)]))
  have hall := Lines.sum_length_pieces (Lines.units isStreamBreak false text.toList)
  rw [Lines.length_units rfl] at hclosed hall
  have htext : ((fieldsText [("data", text)]).filter (fun c => !isStreamBreak c)).length =
      6 + (text.toList.filter (fun c => !isStreamBreak c)).length := by
    have hlist : fieldsText [("data", text)] = "data: ".toList ++ text.toList ++ ['\n', '\n'] := by
      simp [fieldsText, Lines.unlines, fieldLine]
    rw [hlist, List.filter_append, List.filter_append, List.length_append, List.length_append]
    have hname : ("data: ".toList.filter (fun c => !isStreamBreak c)).length = 6 := by decide
    have hfeeds : (['\n', '\n'].filter (fun c => !isStreamBreak c)).length = 0 := by decide
    omega
  have hsum : ∀ ls : List (List Char),
      (((ls.map String.ofList).map (fun v => ("data", v))).map
        (fun w => w.1.toList.length + w.2.toList.length)).sum =
        4 * ls.length + (ls.map List.length).sum := by
    intro ls
    induction ls with
    | nil => rfl
    | cons l ls ih =>
      simp only [List.map_cons, List.sum_cons, List.length_cons, String.toList_ofList, ih]
      have hdata : "data".toList.length = 4 := rfl
      omega
  refine unbroken_of_pieces ?_
  change (((fieldsOf (fieldsText [("data", text)])).map _).sum) ≤ _ at hfields
  rw [h, textLines, hsum, Lines.allLines] at hfields
  rw [textLines, List.length_map, Lines.allLines]
  rw [Lines.closedLines] at hfields
  omega

theorem whole_agrees_iff (h : Unbroken isStreamBreak text) :
    parseStream (linesText .none (splitlines text)).toUTF8 = parseStream (wholeText text).toUTF8 ↔
      text ≠ "" ∧ Unbroken isLineBoundary text := by
  have hread : ∀ data : List String, (∀ d ∈ data, Unbroken isStreamBreak d) →
      parseStream (linesText .none data).toUTF8 = some (afterFields .none data).dispatch := by
    intro data hdata
    have hlabelled : ∀ w ∈ labelledFields .none data, Unbroken isStreamBreak w.2 :=
      unbroken_labelled Labels.none_retry Labels.none_event Labels.none_id hdata
    have hstate := parseStream_linesText hlabelled
    rwa [readFields_labelled Labels.none_id Labels.none_retry] at hstate
  have hlines := hread (splitlines text) (fun d hd => (unbroken_splitlines hd).of_boundary)
  rw [← linesText_single, hlines, hread [text] (fun d hd => by rw [List.mem_singleton.mp hd]; exact h),
    Option.some.injEq]
  constructor
  · intro heq
    have hevents := congrArg StreamState.events heq
    rw [dispatch_events, dispatch_events, if_neg (List.cons_ne_nil _ _),
      String.intercalate_singleton] at hevents
    have hsingle : splitlines text = [text] := by
      cases hs : splitlines text with
      | nil => rw [hs] at hevents; cases hevents
      | cons d data =>
        rw [hs, if_neg (List.cons_ne_nil _ _)] at hevents
        cases data with
        | nil =>
          rw [String.intercalate_singleton] at hevents
          simp at hevents
          rw [hevents]
        | cons e data =>
          -- two lines would leave a line feed in the text
          rw [String.intercalate_cons_cons] at hevents
          simp at hevents
          have hfeed := h '\n' (by rw [← hevents]; simp)
          cases hfeed
    refine ⟨?_, unbroken_splitlines (s := text) (by rw [hsingle]; exact List.mem_cons_self)⟩
    rintro rfl
    cases hsingle
  · rintro ⟨hne, hplain⟩
    have hsingle : splitlines text = [text] := by
      have hchars : text.toList ≠ [] := fun hnil => hne (String.toList_eq_nil_iff.mp hnil)
      rw [splitlines, Lines.lines, Lines.units_plain rfl hplain, Lines.chunks_plain hchars]
      simp
    rw [hsingle]

theorem framed_whole_iff (text : String) :
    Framed .none (some text) (wholeText text).toUTF8 ∧
        parseStream (linesText .none (splitlines text)).toUTF8 =
          parseStream (wholeText text).toUTF8 ↔
      Clean .none false (some text) := by
  have hframed : Framed .none (some text) (wholeText text).toUTF8 ↔
      Unbroken isStreamBreak text := by
    rw [← linesText_single]
    constructor
    · intro hf
      have hread := hf.fields
      rw [streamFields_linesText, Option.some.injEq] at hread
      refine unbroken_of_wholeFields ?_
      simpa [labelledFields, Labels.none] using hread
    · intro hu
      refine (framed_linesText Labels.none_id Labels.none_retry ?_
        (by rw [Option.map_some, Option.getD_some, textLines_unbroken hu])).mpr
        (fun _ he => Labels.none_event (P := fun _ => False) "" he)
      refine unbroken_labelled Labels.none_retry Labels.none_event Labels.none_id ?_
      intro d hd
      rw [List.mem_singleton.mp hd]
      exact hu
  constructor
  · rintro ⟨hf, hsame⟩
    refine ⟨Labels.none_event, Labels.none_id, Bool.noConfusion, ?_⟩
    rintro - t ⟨⟩
    exact (whole_agrees_iff (hframed.mp hf)).mp hsame
  · intro hc
    have hw := hc.whole rfl text rfl
    have hu := hw.2.of_boundary
    exact ⟨hframed.mpr hu, (whole_agrees_iff hu).mpr hw⟩

end

section

variable {V ε : Type} (encode : Option V → Except ε String) {e : ServerSentEvent V}
  {payload : Option String}

theorem accepted_id (e : ServerSentEvent V) : ∀ i, e.id = some i → Char.ofNat 0 ∉ i.toList := by
  intro i hi hmem
  have hok := e.accepted
  rw [EventFields.postInit, hi] at hok
  split at hok
  · cases hok
  · rw [if_pos (by simpa using hmem)] at hok
    cases hok

theorem accepted_retry (e : ServerSentEvent V) : ∀ n, e.retry = some n → 0 ≤ n := by
  intro n hn
  have hok := e.accepted
  rw [EventFields.postInit, hn] at hok
  by_contra hneg
  split at hok
  · cases hok
  · split at hok
    · cases hok
    · rw [if_pos (by simpa using hneg)] at hok
      cases hok

-- everything but a JSON payload alone is written line by line
def byLines (e : ServerSentEvent V) : Bool :=
  e.rawData.isSome || e.data.isNone || e.toLabels ≠ .none

theorem frameEvent_byLines (h : e.payload encode = .ok payload) :
    frameEvent encode formatByLines e =
      .ok (linesText e.toLabels ((payload.map splitlines).getD [])).toUTF8 := by
  rw [ServerSentEvent.payload] at h
  rw [frameEvent]
  cases hraw : e.rawData with
  | some raw =>
    rw [hraw] at h
    cases h
    rfl
  | none =>
    rw [hraw] at h
    cases hdata : e.data with
    | none =>
      rw [hdata] at h
      cases h
      rfl
    | some v =>
      rw [hdata] at h
      dsimp only at h ⊢
      rw [encodeBytes]
      cases henc : encode (some v) with
      | error r => rw [henc] at h; cases h
      | ok text =>
        rw [henc] at h
        cases h
        dsimp only
        rw [formatByLines, dataLines, Utf8.fromUTF8_toUTF8]
        rfl

theorem formatSseEvent_byLines {l : Labels} {dataStr : Option String}
    {dataBytes : Option ByteArray} (h : dataBytes = none ∨ l ≠ .none) :
    (formatSseEvent dataStr dataBytes l : Except (Raised ε) ByteArray) =
      formatByLines dataStr dataBytes l := by
  cases dataBytes with
  | none => rfl
  | some b => exact if_neg (h.resolve_left (by simp))

theorem serialize_byLines (hby : byLines e = true) :
    serializeSseChunk encode (.event e) = frameEvent encode formatByLines e := by
  rw [serializeSseChunk, frameEvent, frameEvent]
  simp only [byLines, Bool.or_eq_true, decide_eq_true_eq] at hby
  cases hraw : e.rawData with
  | some raw => rfl
  | none =>
    cases hdata : e.data with
    | none => rfl
    | some v =>
      have hlabels : e.toLabels ≠ .none := by simpa [hraw, hdata] using hby
      dsimp only
      cases encodeBytes encode (some v) with
      | error r => rfl
      | ok b => exact formatSseEvent_byLines (.inr hlabels)

theorem serialize_whole (h : e.payload encode = .ok payload) (hby : byLines e = false) :
    ∃ text, payload = some text ∧ e.toLabels = .none ∧
      serializeSseChunk encode (.event e) = .ok (wholeText text).toUTF8 := by
  simp only [byLines, Bool.or_eq_false_iff, decide_eq_false_iff_not, not_not] at hby
  obtain ⟨⟨hraw, hdata⟩, hlabels⟩ := hby
  rw [Option.isSome_eq_false_iff, Option.isNone_iff_eq_none] at hraw
  obtain ⟨v, hv⟩ := Option.isSome_iff_exists.mp (by rw [← Option.not_isNone, hdata]; rfl)
  rw [ServerSentEvent.payload, hraw, hv] at h
  dsimp only at h
  rw [serializeSseChunk, frameEvent, hraw, hv]
  dsimp only
  rw [encodeBytes]
  cases henc : encode (some v) with
  | error r => rw [henc] at h; cases h
  | ok text =>
    rw [henc] at h
    cases h
    refine ⟨text, rfl, hlabels, ?_⟩
    dsimp only
    rw [formatSseEvent, if_pos hlabels]
    simp [wholeText]

theorem framingLaw_iff (e : ServerSentEvent V) :
    FramingLaw encode e ↔
      ∀ payload, e.payload encode = .ok payload → Clean e.toLabels (byLines e) payload := by
  refine forall_congr' (fun payload => forall_congr' (fun hp => ?_))
  have hgeneral := frameEvent_byLines encode hp
  cases hby : byLines e with
  | true =>
    have hout := serialize_byLines encode hby
    rw [← framed_byLines_iff (accepted_id e) (accepted_retry e)]
    constructor
    · rintro ⟨out, -, hs, -, hf, -⟩
      rw [hout, hgeneral] at hs
      cases hs
      exact hf
    · intro hf
      exact ⟨_, _, by rw [hout, hgeneral], hgeneral, hf, rfl⟩
  | false =>
    obtain ⟨text, rfl, hlabels, hout⟩ := serialize_whole encode hp hby
    rw [hlabels, Option.map_some, Option.getD_some] at hgeneral
    rw [hlabels, ← framed_whole_iff]
    constructor
    · rintro ⟨out, general, hs, hg, hf, hsame⟩
      rw [hout] at hs
      rw [hgeneral] at hg
      cases hs
      cases hg
      exact ⟨hf, hsame⟩
    · rintro ⟨hf, hsame⟩
      exact ⟨_, _, hout, hgeneral, hf, hsame⟩

def forged : ServerSentEvent String where
  data := none
  rawData := some "price"
  event := some "tick\ndata: forged"
  id := none
  retry := none
  comment := none
  accepted := rfl

theorem framingLaw_forged : ¬FramingLaw (fun v => (.ok (v.getD "null") : Except Unit String))
    forged := by
  intro h
  obtain ⟨out, general, hs, -, hf, -⟩ := h (some "price") rfl
  have hout : out = "event: tick\ndata: forged\ndata: price\n\n".toUTF8 := by
    have hframe : serializeSseChunk (fun v => (.ok (v.getD "null") : Except Unit String))
        (.event forged) = .ok "event: tick\ndata: forged\ndata: price\n\n".toUTF8 := by
      decide +kernel
    rw [hframe] at hs
    cases hs
    rfl
  have hfields := hf.fields
  rw [hout] at hfields
  have hread : streamFields "event: tick\ndata: forged\ndata: price\n\n".toUTF8 =
      some [("event", "tick"), ("data", "forged"), ("data", "price")] := by decide +kernel
  rw [hread] at hfields
  revert hfields
  decide +kernel

end

end DjangoBolt.EventStream
