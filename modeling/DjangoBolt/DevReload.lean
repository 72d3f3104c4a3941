import DjangoBolt.Foundation.Machine
import Mathlib.Data.List.Basic

namespace DjangoBolt.DevReload

inductive Component where
  | rootDir
  | curDir
  | parentDir
  | normal (name : String)
  deriving DecidableEq, Repr

abbrev Path := List Component

-- `cwd` is `none` where the process has no current directory
structure ReloadFilter where
  cwd : Option Path
  ignoreDirNames : List String
  ignorePaths : List Path

def normalizePath (cwd : Option Path) (path : Path) : Path :=
  if path.head? = some .rootDir then path
  else (cwd.map (fun dir => dir ++ path.filter (· ≠ .curDir))).getD path

def ReloadFilter.new (cwd : Option Path) (ignoreDirNames : List String) (ignorePaths : List Path) :
    ReloadFilter :=
  ⟨cwd, ignoreDirNames, ignorePaths.map (normalizePath cwd)⟩

def fileName (path : Path) : Option String :=
  match path.getLast? with
  | some (.normal name) => some name
  | _ => none

def extension (name : String) : Option String :=
  match name.toList.reverse.span (· ≠ '.') with
  | (after, _ :: _ :: _) => some (String.ofList after.reverse)
  | _ => none

def startsWith (name text : String) : Bool := text.toList.isPrefixOf name.toList

def endsWith (name text : String) : Bool := text.toList.isSuffixOf name.toList

def isTemporaryPath (path : Path) : Bool :=
  match fileName path with
  | none => false
  | some name =>
      endsWith name "~" || endsWith name ".swp" || endsWith name ".swo" || endsWith name ".swx" ||
        endsWith name ".tmp" || name = "4913" || startsWith name ".#" ||
        (startsWith name "#" && endsWith name "#")

def hasRelevantExtension (path : Path) : Bool :=
  (fileName path).bind extension = some "py" || (fileName path).bind extension = some "html"

structure Event where
  access : Bool
  paths : List Path

-- what a receive on the watcher's channel returns
inductive Recv where
  | event (e : Event)
  | error (text : String)
  | timeout
  | disconnected

namespace ReloadFilter

variable (f : ReloadFilter)

def isIgnored (path : Path) : Bool :=
  let path := normalizePath f.cwd path
  f.ignorePaths.any (·.isPrefixOf path) || path.any (fun c =>
    match c with
    | .normal name => f.ignoreDirNames.contains name
    | _ => false)

def isRelevant (path : Path) : Bool :=
  !f.isIgnored path && !isTemporaryPath path && hasRelevantExtension path

def firstRelevantPath (e : Event) : Option Path :=
  if e.access then none else e.paths.find? f.isRelevant

-- the receives until the deadline has passed
def debounced (changedPath : Path) : List Recv → Except String (Option Path)
  | [] => .ok (some changedPath)
  | .event e :: rest => debounced ((f.firstRelevantPath e).getD changedPath) rest
  | .error text :: _ => .error text
  | .timeout :: _ => .ok (some changedPath)
  | .disconnected :: _ => .ok (some changedPath)

def recvChange (first : Recv) (window : List Recv) : Except String (Option Path) :=
  match first with
  | .event e =>
      match f.firstRelevantPath e with
      | none => .ok none
      | some changedPath => f.debounced changedPath window
  | .error text => .error text
  | .timeout => .ok none
  | .disconnected => .error "File watcher disconnected"

end ReloadFilter

structure Child where
  reloadCount : Nat
  alive : Bool
  deriving DecidableEq, Repr

-- `children` has every process spawned, `result` what the loop returned
structure State where
  children : List Child
  worker : Option Nat
  workerExited : Bool
  reloadCount : Nat
  result : Option (Except String Int)

-- one round of the loop, with the errors that its calls may raise
structure Round where
  shutdown : Bool
  tryWait : Option String
  first : Recv
  window : List Recv
  shutdownLater : Bool
  stop : Option String
  spawn : Option String

inductive Command where
  | round (r : Round)
  | exits (i : Nat)

def kill (children : List Child) (i : Nat) : List Child :=
  children.modify i (fun child => { child with alive := false })

namespace State

variable (s : State)

def fail (error : String) : State := { s with result := some (.error error) }

-- an error leaves the child as it was
def stopWorker (error : Option String) : Except String State :=
  match s.worker, error with
  | none, _ => .ok s
  | some _, some error => .error error
  | some i, none => .ok { s with children := kill s.children i, worker := none }

def spawnWorker (error : Option String) : Except String State :=
  match error with
  | some error => .error error
  | none => .ok { s with
      children := s.children ++ [⟨s.reloadCount, true⟩]
      worker := some s.children.length
      workerExited := false }

def start (error : Option String) : State :=
  match (⟨[], none, false, 0, none⟩ : State).spawnWorker error with
  | .error error => fail ⟨[], none, false, 0, none⟩ error
  | .ok s => s

def shutDown (stop : Option String) : State :=
  match s.stopWorker stop with
  | .error error => s.fail error
  | .ok t => { t with result := some (.ok 0) }

def poll (error : Option String) : Except String State :=
  match s.worker.bind (s.children[·]?), error with
  | none, _ => .ok s
  | some _, some error => .error error
  | some child, none =>
      .ok (if child.alive then s else { s with worker := none, workerExited := true })

def reload (stop spawn : Option String) : State :=
  let s := { s with reloadCount := s.reloadCount + 1 }
  match s.stopWorker stop with
  | .error error => s.fail error
  | .ok t =>
      match t.spawnWorker spawn with
      | .error error => t.fail error
      | .ok u => u

def round (f : ReloadFilter) (r : Round) : State :=
  if r.shutdown then s.shutDown r.stop
  else
    match s.poll r.tryWait with
    | .error error => s.fail error
    | .ok s =>
        match f.recvChange r.first r.window with
        | .ok (some _) => s.reload r.stop r.spawn
        | .ok none => s
        | .error _ => if r.shutdownLater then s.shutDown r.stop else s

end State

def step (f : ReloadFilter) (s : State) : Command → Option State
  | .round r => if s.result.isSome then none else some (s.round f r)
  | .exits i => some { s with children := kill s.children i }

section

variable {f : ReloadFilter} {first : Recv} {window : List Recv}

def Recv.isError : Recv → Bool
  | .error _ => true
  | _ => false

def Recv.ends : Recv → Bool
  | .timeout | .disconnected => true
  | _ => false

-- a relevant event, with no error of the watcher before the window behind it is over
def sees (f : ReloadFilter) (first : Recv) (window : List Recv) : Bool :=
  (match first with
  | .event e => (f.firstRelevantPath e).isSome
  | _ => false) && !(window.takeWhile (fun r => !r.ends)).any Recv.isError

def quiet (window : List Recv) : Bool :=
  !(window.takeWhile (fun r => !r.ends)).any Recv.isError

theorem debounced_iff (changedPath : Path) :
    (∃ path, f.debounced changedPath window = .ok (some path)) ↔ quiet window = true := by
  induction window generalizing changedPath with
  | nil => simp [ReloadFilter.debounced, quiet]
  | cons r rest ih =>
    cases r with
    | event e =>
      rw [ReloadFilter.debounced, ih]
      rfl
    | _ => simp [ReloadFilter.debounced, quiet, Recv.ends, Recv.isError]

-- a relevant event, with no error of the watcher before the window behind it is over
def reports (f : ReloadFilter) : Command → Bool
  | .round ⟨_, _, .event e, window, _, _, _⟩ => (f.firstRelevantPath e).isSome && quiet window
  | _ => false

theorem recvChange_iff (r : Round) :
    (∃ path, f.recvChange r.first r.window = .ok (some path)) ↔ reports f (.round r) = true := by
  obtain ⟨shutdown, tryWait, first, window, shutdownLater, stop, spawn⟩ := r
  cases first with
  | event e =>
    rw [ReloadFilter.recvChange, reports]
    cases f.firstRelevantPath e with
    | none => simp
    | some path => simp [debounced_iff]
  | _ => simp [ReloadFilter.recvChange, reports]

end

section

variable {f : ReloadFilter} {cs cs' : List Command} {s t : State} {children : List Child} {i : Nat}

def Ended (children : List Child) : Prop := ∀ child ∈ children, child.alive = false

-- the n-th process was told n, and only the last one can be alive
structure Lineage (children : List Child) : Prop where
  counts : ∀ i (child : Child), children[i]? = some child → child.reloadCount = i
  single : ∀ i (child : Child), children[i]? = some child → child.alive = true →
    i + 1 = children.length

theorem kill_getElem? {j : Nat} {child : Child} (h : (kill children i)[j]? = some child) :
    ∃ old : Child, children[j]? = some old ∧ child.reloadCount = old.reloadCount ∧
      (child.alive = true → old.alive = true ∧ i ≠ j) := by
  rw [kill, List.getElem?_modify] at h
  obtain ⟨old, hold, rfl⟩ := Option.map_eq_some_iff.mp h
  by_cases hij : i = j
  · exact ⟨old, hold, by simp [hij], by simp [hij]⟩
  · exact ⟨old, hold, by simp [hij], fun halive => ⟨by simpa [hij] using halive, hij⟩⟩

theorem length_kill : (kill children i).length = children.length := List.length_modify _ _ _

theorem Lineage.kill (h : Lineage children) (i : Nat) : Lineage (kill children i) where
  counts j child hchild := by
    obtain ⟨old, hold, hcount, -⟩ := kill_getElem? hchild
    exact hcount.trans (h.counts j old hold)
  single j child hchild halive := by
    obtain ⟨old, hold, -, hbefore⟩ := kill_getElem? hchild
    rw [length_kill]
    exact h.single j old hold (hbefore halive).1

theorem Lineage.ended (h : Lineage children) (hlast : i + 1 = children.length) :
    Ended (DevReload.kill children i) := by
  intro child hchild
  obtain ⟨j, hj⟩ := List.mem_iff_getElem?.mp hchild
  obtain ⟨old, hold, -, hbefore⟩ := kill_getElem? hj
  by_contra hbad
  rw [Bool.not_eq_false] at hbad
  have hend := h.single j old hold (hbefore hbad).1
  exact (hbefore hbad).2 (by omega)

theorem Ended.kill (h : Ended children) (i : Nat) : Ended (DevReload.kill children i) := by
  intro child hchild
  obtain ⟨j, hj⟩ := List.mem_iff_getElem?.mp hchild
  obtain ⟨old, hold, -, hbefore⟩ := kill_getElem? hj
  by_contra hbad
  rw [Bool.not_eq_false] at hbad
  have hdead := h old (List.mem_of_getElem? hold)
  rw [(hbefore hbad).1] at hdead
  cases hdead

theorem Lineage.spawn (h : Lineage children) (hended : Ended children) :
    Lineage (children ++ [⟨children.length, true⟩]) := by
  have hcases : ∀ j (child : Child), (children ++ [⟨children.length, true⟩])[j]? = some child →
      children[j]? = some child ∨ (j = children.length ∧ child = ⟨children.length, true⟩) := by
    intro j child hchild
    rw [List.getElem?_append] at hchild
    split at hchild
    · exact .inl hchild
    · rename_i hj
      rw [List.getElem?_singleton] at hchild
      split at hchild
      · exact .inr ⟨by omega, (Option.some.inj hchild).symm⟩
      · cases hchild
  refine ⟨fun j child hchild => ?_, fun j child hchild halive => ?_⟩
  · rcases hcases j child hchild with hold | ⟨rfl, rfl⟩
    · exact h.counts j child hold
    · rfl
  · rcases hcases j child hchild with hold | ⟨rfl, -⟩
    · rw [hended child (List.mem_of_getElem? hold)] at halive
      cases halive
    · rw [List.length_append, List.length_singleton]

-- the worker is the process spawned last, or all have ended
def State.Attended (s : State) : Prop :=
  match s.worker with
  | some i => i + 1 = s.children.length
  | none => s.workerExited = true ∧ Ended s.children

structure Supervised (f : ReloadFilter) (cs : List Command) (s : State) : Prop where
  lineage : Lineage s.children
  stopped : s.result = some (.ok 0) → Ended s.children
  running : s.result = none → s.Attended ∧ s.children.length = s.reloadCount + 1 ∧
    s.reloadCount = cs.countP (reports f)

theorem supervised_fail (h : Lineage s.children) (error : String) :
    Supervised f cs (s.fail error) where
  lineage := h
  stopped hresult := by cases hresult
  running hresult := by cases hresult

theorem Supervised.skip {c : Command} (h : Supervised f cs s) (hc : reports f c = false) :
    Supervised f (cs ++ [c]) s where
  lineage := h.lineage
  stopped := h.stopped
  running hresult := by
    rw [List.countP_append, List.countP_singleton, hc]
    exact h.running hresult

structure Stopped (s t : State) : Prop where
  lineage : Lineage t.children
  ended : Ended t.children
  length : t.children.length = s.children.length
  reloadCount : t.reloadCount = s.reloadCount
  result : t.result = s.result

theorem stopWorker_ok {stop : Option String} (h : Lineage s.children) (hattended : s.Attended)
    (hstop : s.stopWorker stop = .ok t) : Stopped s t := by
  rw [State.Attended] at hattended
  cases hworker : s.worker with
  | none =>
    rw [hworker] at hattended
    simp only [State.stopWorker, hworker, Except.ok.injEq] at hstop
    subst hstop
    exact ⟨h, hattended.2, rfl, rfl, rfl⟩
  | some i =>
    rw [hworker] at hattended
    cases stop with
    | some error => simp [State.stopWorker, hworker] at hstop
    | none =>
      simp only [State.stopWorker, hworker, Except.ok.injEq] at hstop
      subst hstop
      exact ⟨h.kill i, h.ended hattended, length_kill, rfl, rfl⟩

theorem Supervised.shutDown (h : Supervised f cs s) (hresult : s.result = none)
    (stop : Option String) : Supervised f cs' (s.shutDown stop) := by
  rw [State.shutDown]
  cases hstop : s.stopWorker stop with
  | error error => exact supervised_fail h.lineage error
  | ok t =>
    have hstopped := stopWorker_ok h.lineage (h.running hresult).1 hstop
    exact ⟨hstopped.lineage, fun _ => hstopped.ended, fun hnone => by cases hnone⟩

theorem Supervised.poll {error : Option String} (h : Supervised f cs s) (hresult : s.result = none)
    (hpoll : s.poll error = .ok t) : Supervised f cs t ∧ t.result = none := by
  rw [State.poll.eq_def] at hpoll
  split at hpoll
  · cases hpoll
    exact ⟨h, hresult⟩
  · cases hpoll
  · rename_i child hchild
    obtain ⟨i, hworker, hget⟩ := Option.bind_eq_some_iff.mp hchild
    obtain ⟨hattended, hrest⟩ := h.running hresult
    cases halive : child.alive with
    | true =>
      rw [halive, if_pos rfl] at hpoll
      cases hpoll
      exact ⟨h, hresult⟩
    | false =>
      rw [halive, if_neg Bool.false_ne_true] at hpoll
      cases hpoll
      refine ⟨⟨h.lineage, h.stopped, fun _ => ⟨⟨rfl, fun other hother => ?_⟩, hrest⟩⟩, hresult⟩
      by_contra hlive
      rw [Bool.not_eq_false] at hlive
      obtain ⟨j, hj⟩ := List.mem_iff_getElem?.mp hother
      have hlast := h.lineage.single j other hj hlive
      rw [State.Attended, hworker] at hattended
      dsimp only at hattended
      have hsame : i = j := by omega
      rw [hsame, hj] at hget
      rw [Option.some.inj hget, halive] at hlive
      cases hlive

theorem Supervised.reload {c : Command} (h : Supervised f cs s) (hresult : s.result = none)
    (hc : reports f c = true) (stop spawn : Option String) :
    Supervised f (cs ++ [c]) (s.reload stop spawn) := by
  obtain ⟨hattended, hlength, hcount⟩ := h.running hresult
  rw [State.reload]
  cases hstop : ({ s with reloadCount := s.reloadCount + 1 } : State).stopWorker stop with
  | error error =>
    exact supervised_fail (s := { s with reloadCount := s.reloadCount + 1 }) h.lineage error
  | ok t =>
    have hstopped := stopWorker_ok (s := { s with reloadCount := s.reloadCount + 1 }) h.lineage
      hattended hstop
    cases spawn with
    | some error => exact supervised_fail hstopped.lineage error
    | none =>
      have hnew : t.reloadCount = t.children.length := by
        rw [hstopped.reloadCount, hstopped.length]
        exact hlength.symm
      have hnone : t.result = none := hstopped.result.trans hresult
      dsimp only [State.spawnWorker]
      refine ⟨?_, fun hr => ?_, fun _ => ⟨?_, ?_, ?_⟩⟩
      · rw [hnew]
        exact hstopped.lineage.spawn hstopped.ended
      · rw [show _ = none from hnone] at hr
        cases hr
      · simp [State.Attended]
      · rw [hnew]
        exact List.length_append
      · rw [List.countP_append, List.countP_singleton, hc, ← hcount]
        exact hstopped.reloadCount

theorem Supervised.round (h : Supervised f cs s) (hresult : s.result = none) (r : Round) :
    Supervised f (cs ++ [.round r]) (s.round f r) := by
  rw [State.round]
  split
  · exact h.shutDown hresult r.stop
  · cases hpoll : s.poll r.tryWait with
    | error error => exact supervised_fail h.lineage error
    | ok t =>
      obtain ⟨ht, hnone⟩ := h.poll hresult hpoll
      dsimp only
      cases hrecv : f.recvChange r.first r.window with
      | error error =>
        dsimp only
        split
        · exact ht.shutDown hnone r.stop
        · refine ht.skip (Bool.not_eq_true _ ▸ fun hreports => ?_)
          obtain ⟨path, hpath⟩ := (recvChange_iff r).mpr hreports
          rw [hrecv] at hpath
          cases hpath
      | ok changed =>
        cases changed with
        | some path => exact ht.reload hnone ((recvChange_iff r).mp ⟨path, hrecv⟩) r.stop r.spawn
        | none =>
          refine ht.skip (Bool.not_eq_true _ ▸ fun hreports => ?_)
          obtain ⟨path, hpath⟩ := (recvChange_iff r).mpr hreports
          rw [hrecv] at hpath
          cases hpath

theorem Supervised.exits (h : Supervised f cs s) (i : Nat) :
    Supervised f (cs ++ [.exits i]) { s with children := kill s.children i } := by
  refine Supervised.skip ⟨h.lineage.kill i, fun hr => (h.stopped hr).kill i, fun hr => ?_⟩ rfl
  obtain ⟨hattended, hlength, hcount⟩ := h.running hr
  refine ⟨?_, length_kill.trans hlength, hcount⟩
  rw [State.Attended] at hattended ⊢
  cases hworker : s.worker with
  | none =>
    rw [hworker] at hattended
    exact ⟨hattended.1, hattended.2.kill i⟩
  | some j =>
    rw [hworker] at hattended
    exact hattended.trans length_kill.symm

theorem supervised_start (spawn : Option String) : Supervised f [] (State.start spawn) := by
  have hempty : Lineage [] := ⟨fun _ _ h => (nomatch h), fun _ _ h => (nomatch h)⟩
  cases spawn with
  | some error => exact supervised_fail (s := ⟨[], none, false, 0, none⟩) hempty error
  | none =>
    exact ⟨hempty.spawn (fun _ h => (nomatch h)), fun hr => (nomatch hr), fun _ => ⟨rfl, rfl, rfl⟩⟩

theorem reloader_supervised (f : ReloadFilter) (spawn : Option String) (cs : List Command)
    (s : State) (h : Machine.run (step f) (.start spawn) cs = some s) : Supervised f cs s := by
  refine Machine.run_history (supervised_start spawn) (fun ds c t u _ ht hstep => ?_) h
  cases c with
  | exits i =>
    cases hstep
    exact ht.exits i
  | round r =>
    rw [step] at hstep
    split at hstep
    · cases hstep
    · rename_i hresult
      cases hstep
      exact ht.round (Option.not_isSome_iff_eq_none.mp hresult) r

def saved (name : String) : Recv := .event ⟨false, [[.rootDir, .normal "app", .normal name]]⟩

-- a change, one that an error of the watcher hides, and the end
def edits : List Command :=
  [.round ⟨false, none, saved "api.py", [saved "api.py.swp", .timeout], false, none, none⟩,
    .exits 1,
    .round ⟨false, none, saved "api.py", [.error "overflow"], false, none, none⟩,
    .round ⟨true, none, .timeout, [], false, none, none⟩]

theorem reloader_supervised_edits : ∃ s,
    Machine.run (step (.new none [] [])) (.start none) edits = some s ∧
      s.children = [⟨0, false⟩, ⟨1, false⟩] ∧ Supervised (.new none [] []) edits s := by
  have hend : (Machine.run (step (.new none [] [])) (.start none) edits).any
      (fun s => s.children = [⟨0, false⟩, ⟨1, false⟩]) = true := by
    decide +kernel
  obtain ⟨s, hs, hchildren⟩ := (Option.any_eq_true _ _).mp hend
  exact ⟨s, hs, of_decide_eq_true hchildren, reloader_supervised _ none edits s hs⟩

end

end DjangoBolt.DevReload
