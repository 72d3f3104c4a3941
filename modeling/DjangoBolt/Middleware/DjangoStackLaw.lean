import DjangoBolt.Middleware.DjangoStack

namespace DjangoBolt.Middleware

open Exec (AgreesOn Commutes Keeps KeepsOnReturn)

section

variable {World Resp Bolt : Type}

-- Django's onion: every layer is called, and MiddlewareMixin's layer is its two hooks
def nestedLayer (cls : MiddlewareClass World Resp) (next : StackRun World Resp Resp) :
    StackRun World Resp Resp :=
  match cls.shape.call with
  | some _ => runCall cls next
  | none => do
      let response ← requestThen cls next
      thenResponse cls response

def nestedChain (adapter : StackAdapter World Resp Bolt) (all : List (MiddlewareClass World Resp)) :
    List (MiddlewareClass World Resp) → StackRun World Resp Resp
  | [] => viewsThenHandler adapter runProcessView all
  | cls :: rest => nestedLayer cls (nestedChain adapter all rest)

def nestedResponse (adapter : StackAdapter World Resp Bolt) :
    List (MiddlewareClass World Resp) → StackRun World Resp Bolt
  | [] => handlerResponse adapter
  | cls :: rest => toBolt adapter (nestedChain adapter (cls :: rest) (cls :: rest))

def nestedCall (adapter : StackAdapter World Resp Bolt)
    (classes : List (MiddlewareClass World Resp)) : StackRun World Resp Bolt := do
  update adapter.toDjangoRequest
  nestedResponse adapter classes

def StackLaw (shapes : List MiddlewareShape) : Prop :=
  ∀ (World Resp Bolt : Type) (adapter : StackAdapter World Resp Bolt)
    (classes : List (MiddlewareClass World Resp)) (world : World),
    classes.map MiddlewareClass.shape = shapes →
      stackCall adapter classes (StackState.fresh world) =
        nestedCall adapter classes (StackState.fresh world)

structure MiddlewareShape.Careful (shape : MiddlewareShape) : Prop where
  callWithoutHooks : shape.call ≠ none → shape.hasHookMethods = false
  syncCall : ∀ mode, shape.call = some mode → mode = .sync
  syncView : shape.processView ≠ some .async

theorem MiddlewareShape.Careful.call_of_hooks {shape : MiddlewareShape} (h : shape.Careful)
    (hhooks : shape.hasHookMethods = true) : shape.call = none := by
  cases hcall : shape.call with
  | none => rfl
  | some mode =>
    have hsome : shape.call ≠ none := by
      rw [hcall]
      exact Option.some_ne_none mode
    rw [h.callWithoutHooks hsome] at hhooks
    cases hhooks

end

section

variable {World Resp Bolt : Type} {adapter : StackAdapter World Resp Bolt}
  {classes : List (MiddlewareClass World Resp)} {cls : MiddlewareClass World Resp}

theorem invokeProcessView_of_sync (h : cls.shape.processView ≠ some .async) :
    invokeProcessView adapter cls = runProcessView cls :=
  if_neg h

theorem processViews_of_sync (h : ∀ cls ∈ classes, cls.shape.processView ≠ some .async) :
    processViews (invokeProcessView adapter) classes = processViews runProcessView classes := by
  induction classes with
  | nil => rfl
  | cons cls rest ih =>
    rw [List.forall_mem_cons] at h
    rw [processViews, processViews, ih h.2, invokeProcessView_of_sync h.1]

theorem processViews_filter (invoke : MiddlewareClass World Resp → StackRun World Resp (Option Resp))
    (classes : List (MiddlewareClass World Resp)) :
    processViews invoke (classes.filter (fun cls => cls.hasHookMethods)) =
      processViews invoke classes := by
  induction classes with
  | nil => rfl
  | cons cls rest ih =>
    by_cases hview : cls.shape.processView = none
    · have hskip : processViews invoke (cls :: rest) = processViews invoke rest := by
        rw [processViews, if_pos hview]
      rw [List.filter_cons, hskip]
      split
      · rw [processViews, if_pos hview, ih]
      · exact ih
    · have hhooks : cls.hasHookMethods = true := by
        rw [MiddlewareClass.hasHookMethods, MiddlewareShape.hasHookMethods,
          Option.isSome_iff_ne_none.mpr hview, Bool.or_true, Bool.true_or]
      rw [List.filter_cons_of_pos hhooks, processViews, processViews, ih]

end

section

variable {World Resp Bolt : Type} {adapter : StackAdapter World Resp Bolt}
  {classes : List (MiddlewareClass World Resp)}

def finishHooks (adapter : StackAdapter World Resp Bolt) :
    List (MiddlewareClass World Resp) × Option Resp → StackRun World Resp Resp
  | (entered, response) => do
      let response ← match response with
        | some response => pure response
        | none => viewsThenHandler adapter (invokeProcessView adapter) entered
      processResponses entered.reverse response

theorem hookOnly_finishHooks (adapter : StackAdapter World Resp Bolt)
    (entries : List (MiddlewareClass World Resp)) :
    hookOnly adapter entries = processRequests entries [] >>= finishHooks adapter := rfl

theorem processResponses_reverse_append (entered : List (MiddlewareClass World Resp))
    (cls : MiddlewareClass World Resp) (response : Resp) :
    processResponses (entered ++ [cls]).reverse response =
      thenResponse cls response >>= processResponses entered.reverse := by
  rw [List.reverse_append, List.reverse_singleton, List.singleton_append, processResponses,
    thenResponse]
  split
  · rfl
  · rw [pure_bind]

-- the hooks already entered are the onion's outer layers, still to answer
theorem hookOnly_from (hcall : ∀ cls ∈ classes, cls.shape.call = none)
    (entered : List (MiddlewareClass World Resp))
    (hview : ∀ cls ∈ entered ++ classes, cls.shape.processView ≠ some .async) :
    processRequests classes entered >>= finishHooks adapter =
      nestedChain adapter (entered ++ classes) classes >>= processResponses entered.reverse := by
  induction classes generalizing entered with
  | nil =>
    rw [List.append_nil] at hview ⊢
    rw [processRequests, pure_bind, nestedChain, finishHooks, viewsThenHandler, viewsThenHandler,
      processViews_of_sync hview]
  | cons cls rest ih =>
    rw [List.forall_mem_cons] at hcall
    have hnext := ih hcall.2 (entered ++ [cls])
      (by rwa [List.append_assoc, List.singleton_append])
    rw [List.append_assoc, List.singleton_append] at hnext
    have hreverse : processResponses (entered ++ [cls]).reverse = fun response =>
        thenResponse cls response >>= processResponses entered.reverse :=
      funext (processResponses_reverse_append entered cls)
    rw [hreverse] at hnext
    rw [processRequests, nestedChain, nestedLayer, hcall.1]
    by_cases hrequest : cls.shape.processRequest = true
    · rw [if_pos hrequest, requestThen, requestOf, if_pos hrequest, bind_assoc, bind_assoc, bind_assoc]
      refine bind_congr (fun response => ?_)
      cases response with
      | some response =>
        rw [pure_bind, pure_bind, finishHooks, pure_bind]
        exact processResponses_reverse_append entered cls response
      | none => exact hnext
    · rw [if_neg hrequest, requestThen, requestOf, if_neg hrequest, pure_bind, hnext, bind_assoc]

theorem hookOnly_eq (hcall : ∀ cls ∈ classes, cls.shape.call = none)
    (hview : ∀ cls ∈ classes, cls.shape.processView ≠ some .async) :
    hookOnly adapter classes = nestedChain adapter classes classes := by
  rw [hookOnly_finishHooks, hookOnly_from hcall [] hview]
  exact bind_pure _

end

section

variable {World Resp Bolt A B : Type} {adapter : StackAdapter World Resp Bolt}
  {all classes entered : List (MiddlewareClass World Resp)} {cls : MiddlewareClass World Resp}
  {next next' : StackRun World Resp Resp} {run : StackRun World Resp A}

-- a run that does not know the list of entered hooks
def Blind (run : StackRun World Resp A) : Prop :=
  ∀ entered, Commutes (StackState.withEntered entered) run

theorem Blind.bind {f : A → StackRun World Resp B} (hrun : Blind run) (hf : ∀ a, Blind (f a)) :
    Blind (run >>= f) :=
  fun entered => (hrun entered).bind (fun a => hf a entered)

theorem blind_pure (a : A) : Blind (pure a : StackRun World Resp A) :=
  fun _ => Exec.commutes_pure a

theorem blind_note (event : HookEvent) : Blind (note event : StackRun World Resp Unit) :=
  fun _ => Exec.commutes_modify (fun _ => rfl)

theorem blind_update (f : World → World) : Blind (update f : StackRun World Resp Unit) :=
  fun _ => Exec.commutes_modify (fun _ => rfl)

theorem blind_act (f : World → A × World) : Blind (act f : StackRun World Resp A) :=
  fun _ _ => rfl

theorem blind_world : Blind (Exec.gets StackState.world : StackRun World Resp World) :=
  fun _ _ => rfl

theorem Blind.keeps (hrun : Blind run) (entered : List (MiddlewareClass World Resp)) :
    Keeps (fun s => s.entered = entered) run := by
  intro s hs
  have hsame : s.withEntered entered = s := by
    rw [← hs]
    rfl
  have hcomm := hrun entered s
  rw [hsame] at hcomm
  exact congrArg (fun r => r.2.entered) hcomm

theorem blind_body (hnext : Blind next) (body : CallBody World Resp) : Blind (body.run next) := by
  induction body with
  | reply response => exact blind_pure response
  | read k ih => exact blind_world.bind ih
  | write world k ih => exact (blind_update _).bind (fun _ => ih)
  | getResponse k ih => exact hnext.bind ih

theorem blind_runCall (hnext : Blind next) (cls : MiddlewareClass World Resp) :
    Blind (runCall cls next) :=
  (blind_note _).bind (fun _ => blind_body hnext cls.call)

theorem blind_requestOf (cls : MiddlewareClass World Resp) : Blind (requestOf cls) := by
  rw [requestOf]
  split
  · exact (blind_note _).bind (fun _ => blind_act _)
  · exact blind_pure none

theorem blind_requestThen (hnext : Blind next) (cls : MiddlewareClass World Resp) :
    Blind (requestThen cls next) := by
  refine (blind_requestOf cls).bind (fun response => ?_)
  cases response with
  | some response => exact blind_pure response
  | none => exact hnext

theorem blind_thenResponse (cls : MiddlewareClass World Resp) (response : Resp) :
    Blind (thenResponse cls response) := by
  rw [thenResponse]
  split
  · exact (blind_note _).bind (fun _ => blind_act _)
  · exact blind_pure response

theorem blind_processViews (classes : List (MiddlewareClass World Resp)) :
    Blind (processViews runProcessView classes) := by
  induction classes with
  | nil => exact blind_pure none
  | cons cls rest ih =>
    rw [processViews]
    split
    · exact ih
    · refine ((blind_note _).bind (fun _ => blind_act _)).bind (fun response => ?_)
      cases response with
      | some response => exact blind_pure _
      | none => exact ih

theorem blind_handlerResponse (adapter : StackAdapter World Resp Bolt) :
    Blind (handlerResponse adapter) :=
  (blind_note _).bind (fun _ => blind_act _)

theorem blind_viewsThenHandler (adapter : StackAdapter World Resp Bolt)
    (all : List (MiddlewareClass World Resp)) :
    Blind (viewsThenHandler adapter runProcessView all) := by
  refine (blind_update _).bind (fun _ => (blind_processViews all).bind (fun response => ?_))
  cases response with
  | some response => exact blind_pure response
  | none => exact (blind_handlerResponse adapter).bind (fun _ => blind_pure _)

theorem blind_nestedLayer (hnext : Blind next) (cls : MiddlewareClass World Resp) :
    Blind (nestedLayer cls next) := by
  rw [nestedLayer]
  split
  · exact blind_runCall hnext cls
  · exact (blind_requestThen hnext cls).bind (blind_thenResponse cls)

theorem blind_nestedChain (adapter : StackAdapter World Resp Bolt)
    (all classes : List (MiddlewareClass World Resp)) : Blind (nestedChain adapter all classes) := by
  induction classes with
  | nil => exact blind_viewsThenHandler adapter all
  | cons cls rest ih => exact blind_nestedLayer ih cls

theorem body_agrees (hnext : AgreesOn (fun s => s.entered = entered) next next')
    (hblind : Blind next') (body : CallBody World Resp) :
    AgreesOn (fun s => s.entered = entered) (body.run next) (body.run next') := by
  induction body with
  | reply response => exact Exec.agreesOn_refl _ _
  | read k ih => exact (Exec.agreesOn_refl _ _).bind (blind_world.keeps entered) ih
  | write world k ih =>
    exact (Exec.agreesOn_refl _ _).bind ((blind_update _).keeps entered) (fun _ => ih)
  | getResponse k ih => exact hnext.bind (hblind.keeps entered) ih

theorem requestThen_agrees (hnext : AgreesOn (fun s => s.entered = entered) next next')
    (cls : MiddlewareClass World Resp) :
    AgreesOn (fun s => s.entered = entered) (requestThen cls next) (requestThen cls next') := by
  refine (Exec.agreesOn_refl _ _).bind ((blind_requestOf cls).keeps entered) (fun response => ?_)
  cases response with
  | some response => exact Exec.agreesOn_refl _ _
  | none => exact hnext

theorem popEntered_append (t : StackState World Resp) (cls : MiddlewareClass World Resp) :
    popEntered (t.withEntered (t.entered ++ [cls])) = (.ok (), t) := by
  have hdrop : (t.entered ++ [cls]).dropLast = t.entered := List.dropLast_concat
  have hpop : popEntered (t.withEntered (t.entered ++ [cls])) =
    (.ok (), t.withEntered (t.entered ++ [cls]).dropLast) := rfl
  rw [hpop, hdrop]
  rfl

theorem finallyDo_popEntered
    (hnext : AgreesOn (fun s => s.entered = entered ++ [cls]) next next') (hblind : Blind next')
    {s : StackState World Resp} (hs : s.entered = entered) :
    Exec.finallyDo (requestThen cls next) popEntered (s.withEntered (entered ++ [cls])) =
      requestThen cls next' s := by
  have hrun := requestThen_agrees hnext cls (s.withEntered (entered ++ [cls])) rfl
  rw [blind_requestThen hblind cls (entered ++ [cls]) s] at hrun
  have hkept : (requestThen cls next' s).2.entered = entered :=
    (blind_requestThen hblind cls).keeps entered s hs
  have hpop := popEntered_append (requestThen cls next' s).2 cls
  rw [hkept] at hpop
  rw [Exec.finallyDo, hrun]
  unfold Exec.andThen
  rw [hpop]

theorem hookLayer_agrees
    (hnext : AgreesOn (fun s => s.entered = entered ++ [cls]) next next') (hblind : Blind next')
    (hcall : cls.shape.call = none) :
    AgreesOn (fun s => s.entered = entered) (hookLayer cls next) (nestedLayer cls next') := by
  intro s hs
  have happend : appendEntered cls s = (.ok (), s.withEntered (entered ++ [cls])) := by
    rw [← hs]
    rfl
  have hinner := finallyDo_popEntered hnext hblind hs
  rw [hookLayer, Exec.bind_of_ok happend, nestedLayer, hcall]
  change Exec.andThen _ _ _ = Exec.andThen _ _ _
  unfold Exec.andThen
  rw [hinner]

theorem nestedLayer_without_hooks (hcall : cls.shape.call = none)
    (hhooks : cls.shape.hasHookMethods = false) : nestedLayer cls next = next := by
  rw [MiddlewareShape.hasHookMethods, Bool.or_eq_false_iff, Bool.or_eq_false_iff] at hhooks
  have hthen : thenResponse cls = pure (f := StackRun World Resp) := by
    funext response
    rw [thenResponse, hhooks.2]
    rfl
  rw [nestedLayer, hcall, requestThen, requestOf, hhooks.1.1, hthen]
  exact bind_pure next

theorem callLayer_agrees (hnext : AgreesOn (fun s => s.entered = entered) next next')
    (hblind : Blind next') (hsync : ∀ mode, cls.shape.call = some mode → mode = .sync)
    (hhooks : cls.shape.hasHookMethods = false) :
    AgreesOn (fun s => s.entered = entered) (callLayer cls next) (nestedLayer cls next') := by
  rw [callLayer, nestedLayer]
  cases hcall : cls.shape.call with
  | none =>
    have hpass : nestedLayer cls next' = next' := nestedLayer_without_hooks hcall hhooks
    rw [nestedLayer, hcall] at hpass
    intro s hs
    exact (hnext s hs).trans (congrFun hpass s).symm
  | some mode =>
    rw [hsync mode hcall]
    exact (Exec.agreesOn_refl _ _).bind ((blind_note _).keeps entered)
      (fun _ => body_agrees hnext hblind cls.call)

theorem compatibilityChain_agrees (hcareful : ∀ cls ∈ classes, cls.shape.Careful)
    (hentered : ∀ cls ∈ entered, cls.shape.processView ≠ some .async)
    (hall : processViews runProcessView (entered ++ classes) = processViews runProcessView all) :
    AgreesOn (fun s => s.entered = entered) (compatibilityChain adapter classes)
      (nestedChain adapter all classes) := by
  induction classes generalizing entered with
  | nil =>
    intro s hs
    have hviews : viewsThenHandler adapter (invokeProcessView adapter) entered =
        viewsThenHandler adapter runProcessView all := by
      rw [List.append_nil] at hall
      rw [viewsThenHandler, viewsThenHandler, processViews_of_sync hentered, hall]
    have hread : enteredHookEntries s = (.ok entered, s) := by
      rw [← hs]
      rfl
    rw [compatibilityChain, Exec.bind_of_ok hread, hviews, nestedChain]
  | cons cls rest ih =>
    rw [List.forall_mem_cons] at hcareful
    have hblind := blind_nestedChain adapter all rest
    rw [compatibilityChain, nestedChain]
    by_cases hhooks : cls.hasHookMethods = true
    · rw [if_pos hhooks]
      refine hookLayer_agrees (ih hcareful.2 ?_ ?_) hblind (hcareful.1.call_of_hooks hhooks)
      · exact List.forall_mem_append.mpr
          ⟨hentered, List.forall_mem_singleton.mpr hcareful.1.syncView⟩
      · rwa [List.append_assoc, List.singleton_append]
    · rw [if_neg hhooks]
      have hnone : cls.hasHookMethods = false := Bool.eq_false_iff.mpr hhooks
      refine callLayer_agrees (ih hcareful.2 hentered ?_) hblind hcareful.1.syncCall hnone
      rw [← hall, ← processViews_filter, ← processViews_filter _ (entered ++ cls :: rest),
        List.filter_append, List.filter_append, List.filter_cons_of_neg hhooks]

end

section

variable {World Resp Bolt : Type} {adapter : StackAdapter World Resp Bolt}
  {all classes : List (MiddlewareClass World Resp)}

theorem viewsThenHandler_without_hooks (h : all.filter (fun cls => cls.hasHookMethods) = []) :
    viewsThenHandler adapter runProcessView all = callOnlyChain adapter [] := by
  rw [viewsThenHandler, ← processViews_filter, h, processViews, callOnlyChain]
  simp only [pure_bind]

theorem callOnlyChain_eq (hcareful : ∀ cls ∈ classes, cls.shape.Careful)
    (hhooks : ∀ cls ∈ classes, cls.hasHookMethods = false)
    (hall : all.filter (fun cls => cls.hasHookMethods) = []) :
    callOnlyChain adapter classes = nestedChain adapter all classes := by
  induction classes with
  | nil => exact (viewsThenHandler_without_hooks hall).symm
  | cons cls rest ih =>
    rw [List.forall_mem_cons] at hcareful hhooks
    rw [callOnlyChain, nestedChain, ← ih hcareful.2 hhooks.2]
    cases hcall : cls.shape.call with
    | none => exact (nestedLayer_without_hooks hcall hhooks.1).symm
    | some mode =>
      rw [hcareful.1.syncCall mode hcall, nestedLayer, hcall]

end

section

variable {World Resp Bolt : Type} {adapter : StackAdapter World Resp Bolt}
  {classes : List (MiddlewareClass World Resp)} {cls : MiddlewareClass World Resp}

theorem callLayerRaises_of_careful (h : cls.shape.Careful) : callLayerRaises cls = false := by
  refine decide_eq_false (fun hunmarked => ?_)
  cases h.syncCall _ hunmarked

theorem hookEntryRaises_of_careful (h : cls.shape.Careful) : hookEntryRaises cls = false := by
  rw [hookEntryRaises, decide_eq_false h.syncView, Bool.and_false]

theorem markedCoroutine_of_careful (h : ∀ cls ∈ classes, cls.shape.Careful) :
    markedCoroutine classes = false := by
  induction classes with
  | nil => rfl
  | cons cls rest ih =>
    rw [List.forall_mem_cons] at h
    rw [markedCoroutine]
    cases hcall : cls.shape.call with
    | none => exact ih h.2
    | some mode =>
      rw [h.1.syncCall mode hcall]
      rfl

theorem callOnlyRaises_of_careful (h : ∀ cls ∈ classes, cls.shape.Careful) :
    callOnlyRaises classes = false := by
  cases classes with
  | nil => rfl
  | cons cls rest =>
    rw [callOnlyRaises, markedCoroutine_of_careful h, Bool.or_false]
    exact callLayerRaises_of_careful (h cls List.mem_cons_self)

theorem any_eq_false_of_careful {raises : MiddlewareClass World Resp → Bool}
    (hraises : ∀ cls : MiddlewareClass World Resp, cls.shape.Careful → raises cls = false)
    (h : ∀ cls ∈ classes, cls.shape.Careful) (p : MiddlewareClass World Resp → Bool) :
    (classes.filter p).any raises = false := by
  refine List.any_eq_false.mpr (fun cls hmem => ?_)
  rw [hraises cls (h cls (List.mem_filter.mp hmem).1)]
  exact Bool.false_ne_true

theorem filter_hooks_eq_nil (h : classes.filter (fun cls => cls.hasHookMethods) = []) :
    (∀ cls ∈ classes, cls.hasHookMethods = false) ∧
      classes.filter (fun cls => !cls.hasHookMethods) = classes := by
  have hnone : ∀ cls ∈ classes, cls.hasHookMethods = false := fun cls hmem =>
    Bool.eq_false_iff.mpr (List.filter_eq_nil_iff.mp h cls hmem)
  refine ⟨hnone, List.filter_eq_self.mpr (fun cls hmem => ?_)⟩
  rw [hnone cls hmem]
  rfl

theorem filter_without_hooks_eq_nil (h : classes.filter (fun cls => !cls.hasHookMethods) = []) :
    (∀ cls ∈ classes, cls.hasHookMethods = true) ∧
      classes.filter (fun cls => cls.hasHookMethods) = classes := by
  have hsome : ∀ cls ∈ classes, cls.hasHookMethods = true := by
    intro cls hmem
    have hnot := List.filter_eq_nil_iff.mp h cls hmem
    rwa [Bool.not_eq_true, Bool.not_eq_false'] at hnot
  exact ⟨hsome, List.filter_eq_self.mpr hsome⟩

theorem createMiddlewareInstance_of_careful (h : ∀ cls ∈ classes, cls.shape.Careful) :
    createMiddlewareInstance classes =
      if classes.filter (fun cls => cls.hasHookMethods) ≠ [] ∧
          classes.filter (fun cls => !cls.hasHookMethods) ≠ [] then some (.compatibility classes)
      else if classes.filter (fun cls => !cls.hasHookMethods) ≠ [] then
        some (.callOnly (classes.filter (fun cls => !cls.hasHookMethods)))
      else if classes.filter (fun cls => cls.hasHookMethods) ≠ [] then
        some (.hookOnly (classes.filter (fun cls => cls.hasHookMethods)))
      else some .direct := by
  have hentry := any_eq_false_of_careful (fun _ => hookEntryRaises_of_careful) h
    (fun cls => cls.hasHookMethods)
  have hlayer := any_eq_false_of_careful (fun _ => callLayerRaises_of_careful) h
    (fun cls => !cls.hasHookMethods)
  have hcall := callOnlyRaises_of_careful
    (fun cls hmem => h cls (List.mem_filter.mp hmem).1 :
      ∀ cls ∈ classes.filter (fun cls => !cls.hasHookMethods), cls.shape.Careful)
  unfold createMiddlewareInstance
  simp only [hentry, hlayer, hcall, Bool.false_eq_true, if_false]

theorem stackCall_of_careful (h : ∀ cls ∈ classes, cls.shape.Careful) (world : World) :
    stackCall adapter classes (StackState.fresh world) =
      nestedCall adapter classes (StackState.fresh world) := by
  have hsetup := createMiddlewareInstance_of_careful h
  by_cases hordered : classes.filter (fun cls => cls.hasHookMethods) = []
  · obtain ⟨hnone, hall⟩ := filter_hooks_eq_nil hordered
    rw [hordered, hall] at hsetup
    cases classes with
    | nil => rfl
    | cons cls rest =>
      have hpath : createMiddlewareInstance (cls :: rest) = some (.callOnly (cls :: rest)) := hsetup
      have hchain : callOnlyChain adapter (cls :: rest) =
          nestedChain adapter (cls :: rest) (cls :: rest) := callOnlyChain_eq h hnone hordered
      rw [stackCall, hpath, nestedCall, nestedResponse, ← hchain]
      rfl
  · by_cases hrest : classes.filter (fun cls => !cls.hasHookMethods) = []
    · obtain ⟨hsome, hall⟩ := filter_without_hooks_eq_nil hrest
      rw [hrest, hall] at hsetup
      cases classes with
      | nil => rfl
      | cons cls rest =>
        have hpath : createMiddlewareInstance (cls :: rest) = some (.hookOnly (cls :: rest)) := hsetup
        have hchain : hookOnly adapter (cls :: rest) =
            nestedChain adapter (cls :: rest) (cls :: rest) :=
          hookOnly_eq (fun cls hmem => (h cls hmem).call_of_hooks (hsome cls hmem))
            (fun cls hmem => (h cls hmem).syncView)
        rw [stackCall, hpath, nestedCall, nestedResponse, ← hchain]
        rfl
    · rw [if_pos ⟨hordered, hrest⟩] at hsetup
      cases classes with
      | nil => rfl
      | cons cls rest =>
        have hchain : AgreesOn (fun s => s.entered = []) (compatibilityChain adapter (cls :: rest))
            (nestedChain adapter (cls :: rest) (cls :: rest)) :=
          compatibilityChain_agrees h (fun _ hmem => by cases hmem) rfl
        have hbolt : AgreesOn (fun s => s.entered = [])
            (toBolt adapter (compatibilityChain adapter (cls :: rest)))
            (toBolt adapter (nestedChain adapter (cls :: rest) (cls :: rest))) :=
          hchain.bind ((blind_nestedChain adapter _ _).keeps []) (fun _ => Exec.agreesOn_refl _ _)
        rw [stackCall, hsetup, nestedCall, nestedResponse]
        exact hbolt { StackState.fresh world with world := adapter.toDjangoRequest world } rfl

end

section

-- hooks that answer nothing and change nothing; only the coroutine object is no response
def quietAdapter : StackAdapter Unit Bool Unit where
  toDjangoRequest := id
  syncRequestAttributes := id
  getResponse := fun _ => ((), ())
  toDjangoResponse := fun _ => true
  toBoltResponse := fun response => if response = true then some () else none
  coroutine := false

def quietClass (shape : MiddlewareShape) : MiddlewareClass Unit Bool where
  shape := shape
  processRequest := fun _ => (none, ())
  processView := fun _ => (none, ())
  processResponse := fun _ response => (response, ())
  call := .getResponse .reply

variable {A B : Type} {shapes all : List MiddlewareShape} {shape : MiddlewareShape}

def Traces (run : StackRun Unit Bool A) (a : A) (events : List HookEvent) : Prop :=
  ∀ s, run s = (.ok a, { s with events := s.events ++ events })

theorem traces_pure (a : A) : Traces (pure a) a [] := by
  intro s
  rw [List.append_nil]
  rfl

theorem Traces.bind {run : StackRun Unit Bool A} {f : A → StackRun Unit Bool B} {a : A} {b : B}
    {first rest : List HookEvent} (hrun : Traces run a first) (hf : Traces (f a) b rest) :
    Traces (run >>= f) b (first ++ rest) := by
  intro s
  rw [Exec.bind_of_ok (hrun s), hf, List.append_assoc]

theorem traces_act (f : Unit → A × Unit) : Traces (act f) (f ()).1 [] := by
  intro s
  rw [List.append_nil]
  rfl

theorem traces_update (f : Unit → Unit) : Traces (update f) () [] := by
  intro s
  rw [List.append_nil]
  rfl

theorem traces_note (event : HookEvent) : Traces (note event) () [event] := fun _ => rfl

theorem traces_noted (event : HookEvent) (f : Unit → A × Unit) :
    Traces (note event >>= fun _ => act f) (f ()).1 [event] :=
  (traces_note event).bind (traces_act f)

theorem nested_views (shapes : List MiddlewareShape) :
    ∃ events, Traces (processViews runProcessView (shapes.map quietClass)) none events ∧
      ∀ shape ∈ shapes, shape.processView ≠ none → .processView shape ∈ events := by
  induction shapes with
  | nil => exact ⟨[], traces_pure none, fun _ hmem => by cases hmem⟩
  | cons shape rest ih =>
    obtain ⟨events, htrace, hmem⟩ := ih
    rw [List.map_cons, processViews]
    by_cases hview : shape.processView = none
    · refine ⟨events, ?_, List.forall_mem_cons.mpr ⟨fun hsome => absurd hview hsome, hmem⟩⟩
      rwa [if_pos (show (quietClass shape).shape.processView = none from hview)]
    · refine ⟨.processView shape :: events, ?_, List.forall_mem_cons.mpr
        ⟨fun _ => List.mem_cons_self, fun other hother hsome =>
          List.mem_cons_of_mem _ (hmem other hother hsome)⟩⟩
      rw [if_neg (show ¬(quietClass shape).shape.processView = none from hview)]
      exact (traces_noted (.processView shape) _).bind htrace

theorem nested_terminal (all : List MiddlewareShape) :
    ∃ events, Traces (viewsThenHandler quietAdapter runProcessView (all.map quietClass)) true events ∧
      ∀ shape ∈ all, shape.processView ≠ none → .processView shape ∈ events := by
  obtain ⟨events, htrace, hmem⟩ := nested_views all
  have hhandler : Traces (handlerResponse quietAdapter) () [.handler] := traces_noted _ _
  refine ⟨events ++ [.handler], ?_, fun shape hshape hsome =>
    List.mem_append_left _ (hmem shape hshape hsome)⟩
  change Traces _ true ([] ++ (events ++ ([.handler] ++ [])))
  rw [viewsThenHandler]
  refine (traces_update _).bind (htrace.bind ?_)
  exact hhandler.bind (traces_pure true)

theorem nested_layer {next : StackRun Unit Bool Bool} {events : List HookEvent}
    (hnext : Traces next true events) (shape : MiddlewareShape) :
    ∃ more, Traces (nestedLayer (quietClass shape) next) true more ∧ events ⊆ more ∧
      (shape.call ≠ none → .call shape ∈ more) := by
  cases hcall : shape.call with
  | some mode =>
    have hlayer : nestedLayer (quietClass shape) next = runCall (quietClass shape) next := by
      rw [nestedLayer, show (quietClass shape).shape.call = some mode from hcall]
    refine ⟨[.call shape] ++ (events ++ []), ?_, ?_, fun _ => List.mem_cons_self⟩
    · rw [hlayer]
      exact (traces_note _).bind (hnext.bind (traces_pure true))
    · rw [List.append_nil]
      exact List.subset_append_right _ _
  | none =>
    have hrequest : ∃ first, Traces (requestOf (quietClass shape)) none first := by
      rw [requestOf]
      split
      · exact ⟨_, traces_noted _ _⟩
      · exact ⟨_, traces_pure none⟩
    have hresponse : ∃ last, Traces (thenResponse (quietClass shape) true) true last := by
      rw [thenResponse]
      split
      · exact ⟨_, traces_noted _ _⟩
      · exact ⟨_, traces_pure true⟩
    obtain ⟨first, hfirst⟩ := hrequest
    obtain ⟨last, hlast⟩ := hresponse
    refine ⟨first ++ events ++ last, ?_, ?_, fun hsome => absurd rfl hsome⟩
    · rw [nestedLayer, show (quietClass shape).shape.call = none from hcall]
      have hthen : Traces (requestThen (quietClass shape) next) true (first ++ events) :=
        hfirst.bind hnext
      exact hthen.bind hlast
    · exact fun event hevent => List.mem_append_left _ (List.mem_append_right _ hevent)

theorem nested_chain (all shapes : List MiddlewareShape) :
    ∃ events, Traces (nestedChain quietAdapter (all.map quietClass) (shapes.map quietClass)) true
        events ∧
      (∀ shape ∈ all, shape.processView ≠ none → .processView shape ∈ events) ∧
      (∀ shape ∈ shapes, shape.call ≠ none → .call shape ∈ events) := by
  induction shapes with
  | nil =>
    obtain ⟨events, htrace, hviews⟩ := nested_terminal all
    exact ⟨events, htrace, hviews, fun _ hmem => by cases hmem⟩
  | cons shape rest ih =>
    obtain ⟨events, htrace, hviews, hcalls⟩ := ih
    obtain ⟨more, hmore, hsub, hcall⟩ := nested_layer htrace shape
    exact ⟨more, hmore, fun other hother hsome => hsub (hviews other hother hsome),
      List.forall_mem_cons.mpr ⟨hcall, fun other hother hsome => hsub (hcalls other hother hsome)⟩⟩

end

section

-- what the stack can run to its end: the `__call__` of a class that has no hooks, a view it awaits
def HookEvent.Sound : HookEvent → Prop
  | .call shape => shape.call = some .sync ∧ shape.hasHookMethods = false
  | .processView shape => shape.processView ≠ some .async
  | _ => True

def SoundEvents {World Resp : Type} (s : StackState World Resp) : Prop :=
  ∀ event ∈ s.events, event.Sound

variable {World Resp Bolt A : Type} {adapter : StackAdapter World Resp Bolt}
  {classes entered : List (MiddlewareClass World Resp)} {cls : MiddlewareClass World Resp}
  {next : StackRun World Resp Resp} {path : StackPath World Resp}

theorem sound_note (event : HookEvent) (h : event.Sound) :
    KeepsOnReturn SoundEvents (note event : StackRun World Resp Unit) :=
  Keeps.onReturn (fun _ hs => List.forall_mem_append.mpr ⟨hs, List.forall_mem_singleton.mpr h⟩)

theorem sound_pure (a : A) : KeepsOnReturn SoundEvents (pure a : StackRun World Resp A) :=
  (Exec.keeps_pure a).onReturn

theorem sound_act (f : World → A × World) :
    KeepsOnReturn SoundEvents (act f : StackRun World Resp A) :=
  Keeps.onReturn (fun _ hs => hs)

theorem sound_update (f : World → World) :
    KeepsOnReturn SoundEvents (update f : StackRun World Resp Unit) :=
  Keeps.onReturn (fun _ hs => hs)

theorem sound_noted (event : HookEvent) (h : event.Sound) (f : World → A × World) :
    KeepsOnReturn SoundEvents (note event >>= fun _ => act f : StackRun World Resp A) :=
  (sound_note event h).bind (fun _ => sound_act f)

theorem sound_body (hnext : KeepsOnReturn SoundEvents next) (body : CallBody World Resp) :
    KeepsOnReturn SoundEvents (body.run next) := by
  induction body with
  | reply response => exact sound_pure response
  | read k ih => exact (Keeps.onReturn (Exec.keeps_gets StackState.world)).bind ih
  | write world k ih => exact (sound_update _).bind (fun _ => ih)
  | getResponse k ih => exact hnext.bind ih

theorem sound_invokeProcessRequest (cls : MiddlewareClass World Resp) :
    KeepsOnReturn SoundEvents (invokeProcessRequest cls) :=
  sound_noted (.processRequest cls.shape) trivial _

theorem sound_invokeProcessResponse (cls : MiddlewareClass World Resp) (response : Resp) :
    KeepsOnReturn SoundEvents (invokeProcessResponse cls response) :=
  sound_noted (.processResponse cls.shape) trivial _

theorem sound_handlerResponse (adapter : StackAdapter World Resp Bolt) :
    KeepsOnReturn SoundEvents (handlerResponse adapter) :=
  sound_noted .handler trivial _

theorem sound_requestOf (cls : MiddlewareClass World Resp) :
    KeepsOnReturn SoundEvents (requestOf cls) := by
  rw [requestOf]
  split
  · exact sound_invokeProcessRequest cls
  · exact sound_pure none

theorem sound_requestThen (hnext : KeepsOnReturn SoundEvents next)
    (cls : MiddlewareClass World Resp) : KeepsOnReturn SoundEvents (requestThen cls next) := by
  refine (sound_requestOf cls).bind (fun response => ?_)
  cases response with
  | some response => exact sound_pure response
  | none => exact hnext

theorem sound_thenResponse (cls : MiddlewareClass World Resp) (response : Resp) :
    KeepsOnReturn SoundEvents (thenResponse cls response) := by
  rw [thenResponse]
  split
  · exact sound_invokeProcessResponse cls response
  · exact sound_pure response

theorem sound_invokeProcessView (adapter : StackAdapter World Resp Bolt)
    (cls : MiddlewareClass World Resp) :
    KeepsOnReturn SoundEvents (invokeProcessView adapter cls) := by
  rw [invokeProcessView]
  split
  · split
    · exact sound_pure _
    · exact Exec.keepsOnReturn_raise
  · rename_i hview
    exact sound_noted (.processView cls.shape) hview _

theorem sound_processViews (adapter : StackAdapter World Resp Bolt)
    (classes : List (MiddlewareClass World Resp)) :
    KeepsOnReturn SoundEvents (processViews (invokeProcessView adapter) classes) := by
  induction classes with
  | nil => exact sound_pure none
  | cons cls rest ih =>
    rw [processViews]
    split
    · exact ih
    · refine (sound_invokeProcessView adapter cls).bind (fun response => ?_)
      cases response with
      | some response => exact sound_pure _
      | none => exact ih

theorem sound_viewsThenHandler (adapter : StackAdapter World Resp Bolt)
    (entries : List (MiddlewareClass World Resp)) :
    KeepsOnReturn SoundEvents (viewsThenHandler adapter (invokeProcessView adapter) entries) := by
  refine (sound_update _).bind (fun _ => (sound_processViews adapter entries).bind
    (fun response => ?_))
  cases response with
  | some response => exact sound_pure response
  | none => exact (sound_handlerResponse adapter).bind (fun _ => sound_pure _)

theorem sound_processRequests (classes entered : List (MiddlewareClass World Resp)) :
    KeepsOnReturn SoundEvents (processRequests classes entered) := by
  induction classes generalizing entered with
  | nil => exact sound_pure _
  | cons cls rest ih =>
    rw [processRequests]
    split
    · refine (sound_invokeProcessRequest cls).bind (fun response => ?_)
      cases response with
      | some response => exact sound_pure _
      | none => exact ih _
    · exact ih _

theorem sound_processResponses (entries : List (MiddlewareClass World Resp)) (response : Resp) :
    KeepsOnReturn SoundEvents (processResponses entries response) := by
  induction entries generalizing response with
  | nil => exact sound_pure response
  | cons cls rest ih =>
    rw [processResponses]
    split
    · exact (sound_invokeProcessResponse cls response).bind ih
    · exact ih response

theorem sound_hookOnly (adapter : StackAdapter World Resp Bolt)
    (entries : List (MiddlewareClass World Resp)) :
    KeepsOnReturn SoundEvents (hookOnly adapter entries) := by
  rw [hookOnly_finishHooks]
  refine (sound_processRequests entries []).bind (fun outcome => ?_)
  obtain ⟨entered, response⟩ := outcome
  cases response with
  | some response => exact (sound_pure response).bind (sound_processResponses _)
  | none => exact (sound_viewsThenHandler adapter entered).bind (sound_processResponses _)

theorem sound_runCall (hnext : KeepsOnReturn SoundEvents next)
    (hsync : cls.shape.call = some .sync) (hhooks : cls.shape.hasHookMethods = false) :
    KeepsOnReturn SoundEvents (runCall cls next) :=
  (sound_note (.call cls.shape) ⟨hsync, hhooks⟩).bind (fun _ => sound_body hnext cls.call)

theorem sound_hookLayer (hnext : KeepsOnReturn SoundEvents next) (cls : MiddlewareClass World Resp) :
    KeepsOnReturn SoundEvents (hookLayer cls next) := by
  have happend : KeepsOnReturn SoundEvents (appendEntered cls) := Keeps.onReturn (fun _ hs => hs)
  have hpop : KeepsOnReturn SoundEvents (popEntered : StackRun World Resp Unit) :=
    Keeps.onReturn (fun _ hs => hs)
  exact happend.bind (fun _ =>
    ((sound_requestThen hnext cls).finallyDo hpop).bind (sound_thenResponse cls))

theorem sound_callLayer (hnext : KeepsOnReturn SoundEvents next)
    (hbody : cls.call = .getResponse .reply) (hhooks : cls.shape.hasHookMethods = false) :
    KeepsOnReturn SoundEvents (callLayer cls next) := by
  rw [callLayer]
  cases hcall : cls.shape.call with
  | none => exact hnext
  | some mode =>
    cases mode with
    | sync => exact sound_runCall hnext hcall hhooks
    | unmarked => exact Exec.keepsOnReturn_raise
    | marked =>
      intro s response t hrun
      obtain ⟨_, u, _, hinner⟩ := Exec.ok_of_bind hrun
      rw [hbody] at hinner
      obtain ⟨_, v, hraise, _⟩ := Exec.ok_of_bind hinner
      cases hraise

theorem sound_compatibilityChain (hbody : ∀ cls ∈ classes, cls.call = .getResponse .reply) :
    KeepsOnReturn SoundEvents (compatibilityChain adapter classes) := by
  induction classes with
  | nil =>
    exact (Keeps.onReturn (Exec.keeps_gets StackState.entered)).bind
      (sound_viewsThenHandler adapter)
  | cons cls rest ih =>
    rw [List.forall_mem_cons] at hbody
    rw [compatibilityChain]
    split
    · exact sound_hookLayer (ih hbody.2) cls
    · rename_i hhooks
      exact sound_callLayer (ih hbody.2) hbody.1 (Bool.eq_false_iff.mpr hhooks)

theorem sound_callOnlyChain (hhooks : ∀ cls ∈ classes, cls.hasHookMethods = false) :
    KeepsOnReturn SoundEvents (callOnlyChain adapter classes) := by
  induction classes with
  | nil =>
    exact (sound_update _).bind (fun _ =>
      (sound_handlerResponse adapter).bind (fun _ => sound_pure _))
  | cons cls rest ih =>
    rw [List.forall_mem_cons] at hhooks
    rw [callOnlyChain]
    cases hcall : cls.shape.call with
    | none => exact ih hhooks.2
    | some mode =>
      cases mode with
      | sync => exact sound_runCall (ih hhooks.2) hcall hhooks.1
      | unmarked => exact sound_pure _
      | marked => exact sound_pure _

theorem sound_toBolt {run : StackRun World Resp Resp} (hrun : KeepsOnReturn SoundEvents run) :
    KeepsOnReturn SoundEvents (toBolt adapter run) :=
  hrun.bind (fun _ => (Exec.keeps_ofOption _).onReturn)

theorem createMiddlewareInstance_cases (h : createMiddlewareInstance classes = some path) :
    path = .compatibility classes ∨
      path = .callOnly (classes.filter (fun cls => !cls.hasHookMethods)) ∨
      path = .hookOnly (classes.filter (fun cls => cls.hasHookMethods)) ∨ path = .direct := by
  unfold createMiddlewareInstance at h
  grind

theorem sound_path (hpath : createMiddlewareInstance classes = some path)
    (hbody : ∀ cls ∈ classes, cls.call = .getResponse .reply) :
    KeepsOnReturn SoundEvents (path.call adapter) := by
  obtain rfl | rfl | rfl | rfl := createMiddlewareInstance_cases hpath
  · exact sound_toBolt (sound_compatibilityChain hbody)
  · refine sound_toBolt (sound_callOnlyChain (fun cls hmem => ?_))
    have hnot := (List.mem_filter.mp hmem).2
    rwa [Bool.not_eq_true'] at hnot
  · exact sound_toBolt (sound_hookOnly adapter _)
  · exact sound_handlerResponse adapter

theorem sound_stackCall (hbody : ∀ cls ∈ classes, cls.call = .getResponse .reply) :
    KeepsOnReturn SoundEvents (stackCall adapter classes) := by
  rw [stackCall]
  cases hpath : createMiddlewareInstance classes with
  | none => exact Exec.keepsOnReturn_raise
  | some path => exact (sound_update _).bind (fun _ => sound_path hpath hbody)

end

theorem careful_of_stackLaw {shapes : List MiddlewareShape} (hlaw : StackLaw shapes) :
    ∀ shape ∈ shapes, shape.Careful := by
  have hmap : (shapes.map quietClass).map MiddlewareClass.shape = shapes := by
    rw [List.map_map]
    exact List.map_id shapes
  have hbody : ∀ cls ∈ shapes.map quietClass, cls.call = .getResponse .reply := by
    intro cls hmem
    obtain ⟨shape, -, rfl⟩ := List.mem_map.mp hmem
    rfl
  intro shape hshape
  obtain ⟨events, htrace, hviews, hcalls⟩ := nested_chain shapes shapes
  have hnested : nestedCall quietAdapter (shapes.map quietClass) (StackState.fresh ()) =
      (.ok (), { StackState.fresh () with events := events }) := by
    cases shapes with
    | nil => cases hshape
    | cons first rest =>
      have hrun := htrace (StackState.fresh ())
      exact Exec.bind_of_ok hrun
  have hstack := (hlaw Unit Bool Unit quietAdapter (shapes.map quietClass) () hmap).trans hnested
  have hsound : ∀ event ∈ events, event.Sound :=
    sound_stackCall hbody _ _ _ hstack (fun _ hmem => by cases hmem)
  refine ⟨fun hcall => (hsound _ (hcalls shape hshape hcall)).2, fun mode hmode => ?_, fun hasync => ?_⟩
  · have hcall : shape.call ≠ none := by
      rw [hmode]
      exact Option.some_ne_none mode
    have hsync := (hsound _ (hcalls shape hshape hcall)).1
    rw [hmode] at hsync
    exact Option.some.inj hsync
  · have hview : shape.processView ≠ none := by
      rw [hasync]
      exact Option.some_ne_none _
    exact hsound _ (hviews shape hshape hview) hasync

-- the middleware stack is Django's onion exactly when no class both hooks and overrides `__call__`,
-- and no `__call__` or `process_view` is async
theorem stackLaw_iff (shapes : List MiddlewareShape) :
    StackLaw shapes ↔ ∀ shape ∈ shapes, shape.Careful := by
  refine ⟨careful_of_stackLaw, fun hcareful World Resp Bolt adapter classes world hshapes => ?_⟩
  refine stackCall_of_careful (fun cls hmem => hcareful cls.shape ?_) world
  rw [← hshapes]
  exact List.mem_map_of_mem hmem

-- an access gate whose check is in `__call__`, beside a `process_view`
def accessGate : MiddlewareShape where
  name := "AccessGateMiddleware"
  builtin := false
  processRequest := false
  processView := some .sync
  processResponse := false
  call := some .sync

theorem accessGate_not_stackLaw : ¬StackLaw [accessGate] := by
  intro hlaw
  have hcareful := careful_of_stackLaw hlaw accessGate List.mem_cons_self
  exact absurd (hcareful.callWithoutHooks (by decide)) (by decide)

end DjangoBolt.Middleware
