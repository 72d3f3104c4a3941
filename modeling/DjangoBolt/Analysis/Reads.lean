import DjangoBolt.Analysis.Evaluation

open Python DjangoBolt.Binding

namespace DjangoBolt.Analysis

def AttrReads (attr : String) (k : Component) : Prop :=
  componentOf attr = some k ∨ attr = "META" ∧ (k = .query ∨ k = .headers)

-- a read at a node that names the component reads the component it names
structure Justified (node : Expr) (k : Component) : Prop where
  attributeOf : ∀ v attr, node = .attributeOf v attr → AttrReads attr k
  subscript : ∀ v key, node = .subscript v (.constant (.str key)) → componentOf key = some k
  getter : ∀ v key rest, node = .call (.attributeOf v "get") (.constant (.str key) :: rest) →
    componentOf key = some k
  fullPath : ∀ v args, node = .call (.attributeOf v "get_full_path") args → k = .query
  absoluteUri : ∀ v args, node = .call (.attributeOf v "build_absolute_uri") args →
    k = .headers ∨ k = .query

def State.Sound (s : State) : Prop :=
  ∀ ev ∈ s.trace, ev.direct = true → Justified ev.node ev.component

section

variable {L : Library} {r : Request} {node : Expr} {direct : Bool} {k : Component}
  {args : List Expr} {name : String} {vs : List Value} {s : State} {ks : List Component}
  {attr : String} {func : Expr}

theorem State.Sound.bind (h : s.Sound) (i : Nat) (name : String) (v : Value) :
    (s.bind i name v).Sound := h

theorem State.Sound.push (h : s.Sound) (frame : Frame) : (s.push frame).Sound := h

theorem keeps_read (h : direct = true → Justified node k) :
    Exec.Keeps State.Sound (read r node direct k) := by
  refine Exec.Keeps.bind (Exec.keeps_modify ?_) (fun _ => Exec.keeps_pure _)
  intro s hs ev hev
  rcases List.mem_append.mp hev with hold | hnew
  · exact hs ev hold
  · rw [List.mem_singleton.mp hnew]
    exact h

theorem keeps_readAll (h : ∀ k ∈ ks, direct = true → Justified node k) :
    Exec.Keeps State.Sound (readAll r node direct ks) := by
  induction ks with
  | nil => exact Exec.keeps_pure _
  | cons k ks ih =>
    refine (keeps_read (h k List.mem_cons_self)).bind (fun _ => ?_)
    exact (ih (fun k' hk' => h k' (List.mem_cons_of_mem k hk'))).bind
      (fun _ => Exec.keeps_pure _)

theorem keeps_requestAttr (h : ∀ k, AttrReads attr k → direct = true → Justified node k) :
    Exec.Keeps State.Sound (requestAttr L r node direct attr) := by
  rw [requestAttr]
  cases hk : componentOf attr with
  | some k => exact (keeps_read (h k (.inl hk))).bind (fun _ => Exec.keeps_pure _)
  | none =>
    simp only
    split
    · rename_i hmeta
      refine (keeps_readAll (fun k hmem => h k (.inr ⟨hmeta, ?_⟩))).bind
        (fun _ => Exec.keeps_pure _)
      simpa using hmem
    · split
      · exact Exec.keeps_pure _
      · exact Exec.keeps_ofOption _

theorem returns_requestAttr (hattr : attr ∈ requestMethods) :
    Exec.Returns (requestAttr L r node direct attr) (fun v => v = .method attr) := by
  have hcontains : requestMethods.contains attr = true := List.contains_iff_mem.mpr hattr
  have hcomponent : componentOf attr = none ∧ attr ≠ "META" := by
    simp only [requestMethods, List.mem_cons, List.not_mem_nil, or_false] at hattr
    rcases hattr with rfl | rfl | rfl | rfl <;> exact ⟨by decide, by decide⟩
  rw [requestAttr, hcomponent.1]
  simp only [if_neg hcomponent.2, hcontains, if_true]
  exact Exec.returns_pure rfl

theorem keeps_requestItem {key : String} {missing : Run Value}
    (h : ∀ k, componentOf key = some k → direct = true → Justified node k)
    (hmissing : Exec.Keeps State.Sound missing) :
    Exec.Keeps State.Sound (requestItem L r node direct key missing) := by
  rw [requestItem]
  cases hk : componentOf key with
  | some k => exact (keeps_read (h k hk)).bind (fun _ => Exec.keeps_pure _)
  | none =>
    cases L.requestKey key with
    | some v => exact Exec.keeps_pure _
    | none => exact hmissing

theorem keeps_getAttr (value : Expr) (v : Value) (attr : String) :
    Exec.Keeps State.Sound (getAttr L r (.attributeOf value attr) v attr) := by
  have hjustified : ∀ k, AttrReads attr k → true = true →
      Justified (.attributeOf value attr) k := by
    intro k hk _
    refine ⟨fun v' attr' heq => ?_, nofun, nofun, nofun, nofun⟩
    cases heq
    exact hk
  cases v with
  | request => exact keeps_requestAttr hjustified
  | _ => exact Exec.keeps_ofOption _

theorem keeps_getItem {value slice : Expr} {v i : Value}
    (hi : ∀ key, slice = .constant (.str key) → i.str? = some key) :
    Exec.Keeps State.Sound (getItem L r (.subscript value slice) v i) := by
  cases v with
  | request =>
    simp only [getItem]
    cases hkey : i.str? with
    | none => exact Exec.keeps_raise
    | some key =>
      refine keeps_requestItem (fun k hk _ => ?_) Exec.keeps_raise
      refine ⟨nofun, fun v' key' heq => ?_, nofun, nofun, nofun⟩
      cases heq
      have := hi key' rfl
      rw [hkey, Option.some.injEq] at this
      exact this ▸ hk
  | tuple items =>
    cases i with
    | constant c =>
      cases c with
      | int n =>
        cases n with
        | ofNat n => exact Exec.keeps_ofOption _
        | negSucc n => exact Exec.keeps_ofOption _
      | _ => exact Exec.keeps_ofOption _
    | _ => exact Exec.keeps_ofOption _
  | _ => exact Exec.keeps_ofOption _

-- what the evaluator knows about a method it took from the request at the call itself
structure Applied (func : Expr) (args : List Expr) (f : Value) (vs : List Value) : Prop where
  method : ∀ v attr, func = .attributeOf v attr → attr ∈ requestMethods → f = .method attr
  key : ∀ key rest, args = .constant (.str key) :: rest →
    ∃ vs', vs = .constant (.str key) :: vs'

theorem justified_call (h : Applied func args (.method name) vs)
    (hget : ∀ key vs', name = "get" → vs = .constant (.str key) :: vs' → componentOf key = some k)
    (hfull : name = "get_full_path" → k = .query)
    (huri : name = "build_absolute_uri" → k = .headers ∨ k = .query) :
    Justified (.call func args) k := by
  have hname : ∀ v attr, func = .attributeOf v attr → attr ∈ requestMethods → name = attr := by
    intro v attr hfunc hattr
    have := h.method v attr hfunc hattr
    injection this
  refine ⟨nofun, nofun, ?_, ?_, ?_⟩
  · intro v key rest heq
    injection heq with hfunc hargs
    obtain ⟨vs', hvs⟩ := h.key key rest hargs
    exact hget key vs' (hname v _ hfunc (by decide)) hvs
  · intro v args' heq
    injection heq with hfunc hargs
    exact hfull (hname v _ hfunc (by decide))
  · intro v args' heq
    injection heq with hfunc hargs
    exact huri (hname v _ hfunc (by decide))

theorem keeps_keyed (h : direct = true → Applied func args (.method name) vs)
    (hname : name = "get" ∨ name = "setdefault") :
    Exec.Keeps State.Sound (keyed L r (.call func args) direct vs) := by
  cases vs with
  | nil => exact Exec.keeps_raise
  | cons v rest =>
    rw [keyed]
    cases hkey : v.str? with
    | none => exact Exec.keeps_raise
    | some key =>
      refine keeps_requestItem (fun k hk hdirect => ?_) (Exec.keeps_pure _)
      refine justified_call (h hdirect) (fun key' vs' _ hvs => ?_) (fun hfull => ?_)
        (fun huri => ?_)
      · injection hvs with hv hrest
        rw [hv, Value.str?, Option.some.injEq] at hkey
        rw [hkey, hk]
      · rcases hname with heq | heq <;> rw [heq] at hfull <;> exact absurd hfull (by decide)
      · rcases hname with heq | heq <;> rw [heq] at huri <;> exact absurd huri (by decide)

theorem keeps_viewOf {parts : Option (List Component)}
    (h : ∀ ks, parts = some ks → ∀ k ∈ ks, direct = true → Justified node k) :
    Exec.Keeps State.Sound (viewOf r node direct name vs parts) := by
  cases parts with
  | none => exact Exec.keeps_raise
  | some ks => exact (keeps_readAll (h ks rfl)).bind (fun _ => Exec.keeps_pure _)

theorem mem_uriParts (h : uriParts vs = some ks) (hk : k ∈ ks) : k = .headers ∨ k = .query := by
  have hboth : ∀ {ks' : List Component}, ks' ⊆ [.headers, .query] → some ks' = some ks →
      k = .headers ∨ k = .query := by
    intro ks' hsub heq
    rw [Option.some.injEq] at heq
    simpa using hsub (heq ▸ hk)
  rw [uriParts.eq_def] at h
  split at h
  · exact hboth (List.Subset.refl _) h
  · exact hboth (List.Subset.refl _) h
  · exact hboth (by simp) h
  · cases h

theorem keeps_callMethod (h : direct = true → Applied func args (.method name) vs) :
    Exec.Keeps State.Sound (callMethod L r (.call func args) direct name vs) := by
  rw [callMethod]
  split
  · rename_i hname
    exact keeps_keyed h hname
  · rename_i hkeyed
    have hget : ∀ {k : Component} key vs', name = "get" → vs = .constant (.str key) :: vs' →
        componentOf key = some k := fun _ _ heq _ => absurd (.inl heq) hkeyed
    split
    · rename_i hfull
      refine keeps_viewOf (fun ks hks k hk hdirect => ?_)
      refine justified_call (h hdirect) hget (fun _ => ?_)
        (fun huri => absurd (hfull.symm.trans huri) (by decide))
      split at hks
      · rw [Option.some.injEq] at hks
        rw [← hks] at hk
        exact List.mem_singleton.mp hk
      · cases hks
    · rename_i hfull
      split
      · exact keeps_viewOf (fun ks hks k hk hdirect =>
          justified_call (h hdirect) hget (fun heq => absurd heq hfull)
            (fun _ => mem_uriParts hks hk))
      · exact Exec.keeps_raise

theorem keeps_callLibrary : Exec.Keeps State.Sound (callLibrary L r node name vs) :=
  (keeps_readAll (fun _ _ h => by cases h)).bind (fun _ => Exec.keeps_ofOption _)

theorem keeps_callBuiltin : Exec.Keeps State.Sound (callBuiltin L r node name vs) := by
  rw [callBuiltin.eq_def]
  split
  · split
    · exact keeps_requestAttr (fun _ _ h => by cases h)
    · exact keeps_callLibrary
  · exact keeps_callLibrary

theorem keeps_lookupName {frame : Nat} : Exec.Keeps State.Sound (lookupName L frame name) := by
  refine (Exec.keeps_gets _).bind (fun found => ?_)
  cases found with
  | some v => exact Exec.keeps_ofOption v
  | none => exact Exec.keeps_ofOption _

end

section

variable (L : Library) (r : Request)

theorem returns_eval_constant (fuel frame : Nat) (e : Expr) :
    Exec.Returns (eval L r fuel frame e) (fun v => ∀ c, e = .constant c → v = .constant c) := by
  cases fuel with
  | zero =>
    rw [eval]
    exact Exec.returns_timeout
  | succ fuel =>
    intro s v hv c he
    rw [he, eval] at hv
    cases hv
    rfl

theorem returns_evalArgs_key (fuel frame : Nat) (args : List Expr) :
    Exec.Returns (evalArgs L r fuel frame args) (fun vs => ∀ key rest,
      args = .constant (.str key) :: rest → ∃ vs', vs = .constant (.str key) :: vs') := by
  cases fuel with
  | zero =>
    rw [evalArgs]
    exact Exec.returns_timeout
  | succ fuel =>
    cases args with
    | nil => exact fun _ _ _ _ _ heq => by cases heq
    | cons e es =>
      rw [evalArgs]
      refine (returns_eval_constant L r fuel frame e).bind (fun v hv => ?_)
      refine (Exec.returns_trivial _).bind (fun vs _ => ?_)
      intro s vs' hvs key rest heq
      injection heq with he hes
      rw [he] at hvs
      cases hvs
      exact ⟨vs, by rw [hv _ he]⟩

theorem returns_evalCallee_method (fuel frame : Nat) (func : Expr) :
    Exec.Returns (evalCallee L r fuel frame func) (fun callee => callee.2 = true →
      ∀ v attr, func = .attributeOf v attr → attr ∈ requestMethods → callee.1 = .method attr) := by
  cases fuel with
  | zero =>
    rw [evalCallee]
    exact Exec.returns_timeout
  | succ fuel =>
    cases func with
    | attributeOf value attr =>
      rw [evalCallee]
      refine (Exec.returns_trivial _).bind (fun v _ => ?_)
      cases v with
      | request =>
        by_cases hattr : attr ∈ requestMethods
        · refine (returns_requestAttr hattr).bind (fun f hf => Exec.returns_pure ?_)
          intro _ v' attr' heq _
          cases heq
          exact hf
        · refine (Exec.returns_trivial _).bind (fun f _ => Exec.returns_pure ?_)
          intro _ v' attr' heq hmem
          cases heq
          exact absurd hmem hattr
      | _ =>
        refine (Exec.returns_trivial _).bind (fun f _ => Exec.returns_pure ?_)
        intro hdirect
        cases hdirect
    | _ => exact fun _ _ _ _ _ _ heq => by cases heq

structure EvaluatorKeeps (fuel : Nat) : Prop where
  eval : ∀ frame e, Exec.Keeps State.Sound (eval L r fuel frame e)
  callee : ∀ frame e, Exec.Keeps State.Sound (evalCallee L r fuel frame e)
  args : ∀ frame es, Exec.Keeps State.Sound (evalArgs L r fuel frame es)
  apply : ∀ func args direct f vs, (direct = true → Applied func args f vs) →
    Exec.Keeps State.Sound (apply L r fuel (.call func args) direct f vs)
  exec : ∀ frame stmt, Exec.Keeps State.Sound (exec L r fuel frame stmt)
  body : ∀ frame stmts, Exec.Keeps State.Sound (execBody L r fuel frame stmts)
  each : ∀ frame target body items,
    Exec.Keeps State.Sound (execEach L r fuel frame target body items)

variable {L r} {fuel : Nat}

theorem keeps_eval_succ (h : EvaluatorKeeps L r fuel) (frame : Nat) (e : Expr) :
    Exec.Keeps State.Sound (eval L r (fuel + 1) frame e) := by
  cases e with
  | name id =>
    rw [eval]
    exact keeps_lookupName
  | constant c =>
    rw [eval]
    exact Exec.keeps_pure _
  | attributeOf value attr =>
    rw [eval]
    exact (h.eval frame value).bind (fun v => keeps_getAttr value v attr)
  | subscript value slice =>
    rw [eval]
    refine (h.eval frame value).bind (fun v => ?_)
    refine (h.eval frame slice).bind_of (returns_eval_constant L r fuel frame slice)
      (fun i hi => keeps_getItem (fun key hslice => ?_))
    rw [hi _ hslice]
    rfl
  | call func args =>
    rw [eval]
    refine (h.callee frame func).bind_of (returns_evalCallee_method L r fuel frame func)
      (fun callee hcallee => ?_)
    refine (h.args frame args).bind_of (returns_evalArgs_key L r fuel frame args)
      (fun vs hvs => ?_)
    exact h.apply func args callee.2 callee.1 vs (fun hdirect => ⟨hcallee hdirect, hvs⟩)
  | starred value =>
    rw [eval]
    exact h.eval frame value
  | await value =>
    rw [eval]
    exact h.eval frame value
  | ifExp test body orelse =>
    rw [eval]
    refine (h.eval frame test).bind (fun v => ?_)
    split
    · exact h.eval frame body
    · exact h.eval frame orelse
  | lambda args body =>
    rw [eval]
    exact Exec.keeps_pure _
  | tuple elts =>
    rw [eval]
    exact (h.args frame elts).bind (fun _ => Exec.keeps_pure _)
  | other kind children =>
    rw [eval]
    exact (h.args frame children).bind (fun _ => Exec.keeps_ofOption _)

theorem keeps_evalCallee_succ (h : EvaluatorKeeps L r fuel) (frame : Nat) (func : Expr) :
    Exec.Keeps State.Sound (evalCallee L r (fuel + 1) frame func) := by
  cases func with
  | attributeOf value attr =>
    rw [evalCallee]
    refine (h.eval frame value).bind (fun v => ?_)
    exact (keeps_getAttr value v attr).bind (fun _ => Exec.keeps_pure _)
  | _ =>
    simp only [evalCallee]
    exact (h.eval frame _).bind (fun _ => Exec.keeps_pure _)

theorem keeps_evalArgs_succ (h : EvaluatorKeeps L r fuel) (frame : Nat) (es : List Expr) :
    Exec.Keeps State.Sound (evalArgs L r (fuel + 1) frame es) := by
  cases es with
  | nil =>
    rw [evalArgs]
    exact Exec.keeps_pure _
  | cons e es =>
    rw [evalArgs]
    refine (h.eval frame e).bind (fun v => (h.args frame es).bind (fun vs => ?_))
    split <;> exact Exec.keeps_pure _

theorem keeps_apply_succ (h : EvaluatorKeeps L r fuel) {func : Expr} {args : List Expr}
    {direct : Bool} {f : Value} {vs : List Value}
    (happlied : direct = true → Applied func args f vs) :
    Exec.Keeps State.Sound (apply L r (fuel + 1) (.call func args) direct f vs) := by
  rw [apply.eq_def]
  cases f with
  | closure params vararg body parent =>
    simp only
    cases bindArguments params vararg vs with
    | none => exact Exec.keeps_raise
    | some vars =>
      refine (Exec.keeps_gets _).bind (fun frame => ?_)
      refine (Exec.keeps_modify (fun s hs => hs.push _)).bind (fun _ => ?_)
      exact (h.body frame body).bind (fun _ => Exec.keeps_pure _)
  | method name => exact keeps_callMethod happlied
  | builtin name => exact keeps_callBuiltin
  | _ => exact Exec.keeps_raise

theorem keeps_exec_succ (h : EvaluatorKeeps L r fuel) (frame : Nat) (stmt : Stmt) :
    Exec.Keeps State.Sound (exec L r (fuel + 1) frame stmt) := by
  cases stmt with
  | expr value =>
    rw [exec]
    exact (h.eval frame value).bind (fun _ => Exec.keeps_pure _)
  | assign target value =>
    rw [exec]
    refine (h.eval frame value).bind (fun v => ?_)
    exact (Exec.keeps_modify (fun s hs => hs.bind frame target v)).bind
      (fun _ => Exec.keeps_pure _)
  | ret value =>
    rw [exec]
    exact (h.eval frame value).bind (fun _ => Exec.keeps_pure _)
  | raise =>
    rw [exec]
    exact Exec.keeps_raise
  | ite test body orelse =>
    rw [exec]
    refine (h.eval frame test).bind (fun v => ?_)
    split
    · exact h.body frame body
    · exact h.body frame orelse
  | whileLoop test body =>
    rw [exec]
    refine (h.eval frame test).bind (fun v => ?_)
    split
    · refine (h.body frame body).bind (fun result => ?_)
      cases result with
      | some v => exact Exec.keeps_pure _
      | none => exact h.exec frame _
    · exact Exec.keeps_pure _
  | forLoop target iter body =>
    rw [exec]
    exact (h.eval frame iter).bind (fun v => h.each frame target body _)
  | tryExcept body handler =>
    rw [exec]
    exact (h.body frame body).attempt (h.body frame handler)
  | functionDef name args vararg body =>
    rw [exec]
    exact (Exec.keeps_modify (fun s hs => hs.bind frame name _)).bind
      (fun _ => Exec.keeps_pure _)

theorem keeps_execBody_succ (h : EvaluatorKeeps L r fuel) (frame : Nat) (stmts : List Stmt) :
    Exec.Keeps State.Sound (execBody L r (fuel + 1) frame stmts) := by
  cases stmts with
  | nil =>
    rw [execBody]
    exact Exec.keeps_pure _
  | cons stmt stmts =>
    rw [execBody]
    refine (h.exec frame stmt).bind (fun result => ?_)
    cases result with
    | some v => exact Exec.keeps_pure _
    | none => exact h.body frame stmts

theorem keeps_execEach_succ (h : EvaluatorKeeps L r fuel) (frame : Nat) (target : String)
    (body : List Stmt) (items : List Value) :
    Exec.Keeps State.Sound (execEach L r (fuel + 1) frame target body items) := by
  cases items with
  | nil =>
    rw [execEach]
    exact Exec.keeps_pure _
  | cons v vs =>
    rw [execEach]
    refine (Exec.keeps_modify (fun s hs => hs.bind frame target v)).bind (fun _ => ?_)
    refine (h.body frame body).bind (fun result => ?_)
    cases result with
    | some v => exact Exec.keeps_pure _
    | none => exact h.each frame target body vs

theorem evaluator_keeps (fuel : Nat) : EvaluatorKeeps L r fuel := by
  induction fuel with
  | zero =>
    refine ⟨?_, ?_, ?_, ?_, ?_, ?_, ?_⟩ <;> intros
    · rw [eval]
      exact Exec.keeps_timeout
    · rw [evalCallee]
      exact Exec.keeps_timeout
    · rw [evalArgs]
      exact Exec.keeps_timeout
    · rw [apply]
      exact Exec.keeps_timeout
    · rw [exec]
      exact Exec.keeps_timeout
    · rw [execBody]
      exact Exec.keeps_timeout
    · rw [execEach]
      exact Exec.keeps_timeout
  | succ fuel ih =>
    exact ⟨keeps_eval_succ ih, keeps_evalCallee_succ ih, keeps_evalArgs_succ ih,
      fun _ _ _ _ _ h => keeps_apply_succ ih h, keeps_exec_succ ih, keeps_execBody_succ ih,
      keeps_execEach_succ ih⟩

end

end DjangoBolt.Analysis
