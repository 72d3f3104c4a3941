import DjangoBolt.Foundation.Dict

namespace Python

inductive ParameterKind where
  | positionalOnly
  | positionalOrKeyword
  | varPositional
  | keywordOnly
  | varKeyword
  deriving DecidableEq, Repr

namespace ParameterKind

def positional : ParameterKind → Bool
  | positionalOnly | positionalOrKeyword => true
  | varPositional | keywordOnly | varKeyword => false

def keyword : ParameterKind → Bool
  | positionalOrKeyword | keywordOnly => true
  | positionalOnly | varPositional | varKeyword => false

def single : ParameterKind → Bool
  | positionalOnly | positionalOrKeyword | keywordOnly => true
  | varPositional | varKeyword => false

theorem keyword_of_single {k : ParameterKind} (h : k.single = true) (hp : k.positional = false) :
    k = keywordOnly := by
  cases k <;> simp_all [single, positional]

end ParameterKind

structure Target where
  name : String
  kind : ParameterKind
  deriving DecidableEq, Repr

structure Call (V : Type) where
  args : List V
  kwargs : Dict String V

inductive Slot (V : Type) where
  | value (v : V)
  | rest (vs : List V)
  | keywords (es : List (String × V))

inductive CallError where
  | missingArgument (name : String)
  | multipleValues (name : String)
  | tooManyPositional
  | unexpectedKeyword
  deriving DecidableEq, Repr

structure Formal (V : Type) where
  target : Target
  default : Option V

namespace Call

variable {V : Type} {es : List (Target × V)} {e : Target × V} {all fs : List (Formal V)}
  {kwargs : Dict String V} {f : Formal V} {bound : List (String × Slot V)}

def empty : Call V := ⟨[], ∅⟩

def put (c : Call V) (t : Target) (v : V) : Call V :=
  if t.kind.positional then { c with args := c.args ++ [v] }
  else { c with kwargs := c.kwargs.set t.name v }

def place : List (Target × V) → Call V → Call V
  | [], c => c
  | e :: es, c => place es (c.put e.1 e.2)

def Same (c d : Call V) : Prop := c.args = d.args ∧ c.kwargs.Same d.kwargs

theorem Same.refl (c : Call V) : c.Same c := ⟨rfl, Dict.Same.refl _⟩

theorem Same.symm {c d : Call V} (h : c.Same d) : d.Same c := ⟨h.1.symm, h.2.symm⟩

theorem Same.trans {c d e : Call V} (h : c.Same d) (g : d.Same e) : c.Same e :=
  ⟨h.1.trans g.1, h.2.trans g.2⟩

def fallback (name : String) : Option V → Except CallError V
  | some v => .ok v
  | none => .error (.missingArgument name)

def acceptsKey (fs : List (Formal V)) (k : String) : Bool :=
  fs.any (fun f => f.target.kind.keyword && f.target.name == k)

def takesKeywords (fs : List (Formal V)) : Bool :=
  fs.any (fun f => f.target.kind == .varKeyword)

def bindFormals (all : List (Formal V)) (kwargs : Dict String V) :
    List (Formal V) → List V → Except CallError (List (String × Slot V))
  | [], [] => .ok []
  | [], _ :: _ => .error .tooManyPositional
  | f :: fs, args =>
      match f.target.kind with
      | .varPositional => do
          let tail ← bindFormals all kwargs fs []
          return (f.target.name, .rest args) :: tail
      | .varKeyword => do
          let extra := kwargs.entries.filter (fun e => !acceptsKey all e.1)
          let tail ← bindFormals all kwargs fs args
          return (f.target.name, .keywords extra) :: tail
      | .keywordOnly => do
          let v ← fallback f.target.name (kwargs.get? f.target.name <|> f.default)
          let tail ← bindFormals all kwargs fs args
          return (f.target.name, .value v) :: tail
      | .positionalOnly =>
          match args with
          | a :: as => do
              let tail ← bindFormals all kwargs fs as
              return (f.target.name, .value a) :: tail
          | [] => do
              let v ← fallback f.target.name f.default
              let tail ← bindFormals all kwargs fs []
              return (f.target.name, .value v) :: tail
      | .positionalOrKeyword =>
          match args with
          | a :: as =>
              if kwargs.contains f.target.name then .error (.multipleValues f.target.name) else do
                let tail ← bindFormals all kwargs fs as
                return (f.target.name, .value a) :: tail
          | [] => do
              let v ← fallback f.target.name (kwargs.get? f.target.name <|> f.default)
              let tail ← bindFormals all kwargs fs []
              return (f.target.name, .value v) :: tail

def bind (fs : List (Formal V)) (c : Call V) : Except CallError (List (String × Slot V)) :=
  if takesKeywords fs || c.kwargs.keys.all (acceptsKey fs) then
    bindFormals fs c.kwargs fs c.args
  else .error .unexpectedKeyword

def positionals (es : List (Target × V)) : List V :=
  (es.filter (fun e => e.1.kind.positional)).map Prod.snd

def keywordEntries (es : List (Target × V)) : List (String × V) :=
  (es.filter (fun e => !e.1.kind.positional)).map (fun e => (e.1.name, e.2))

theorem place_args (es : List (Target × V)) (c : Call V) :
    (place es c).args = c.args ++ positionals es := by
  induction es generalizing c with
  | nil => simp [place, positionals]
  | cons e es ih =>
    rw [place, ih]
    by_cases h : e.1.kind.positional = true
    · simp [put, positionals, h]
    · simp [put, positionals, h]

theorem place_kwargs (es : List (Target × V)) (c : Call V) :
    (place es c).kwargs = c.kwargs.setAll (keywordEntries es) := by
  induction es generalizing c with
  | nil => simp [place, keywordEntries, Dict.setAll]
  | cons e es ih =>
    rw [place, ih]
    by_cases h : e.1.kind.positional = true
    · simp [put, keywordEntries, h]
    · simp [put, keywordEntries, h, Dict.setAll]

theorem keywordEntries_keys_sublist (es : List (Target × V)) :
    ((keywordEntries es).map Prod.fst).Sublist (es.map (fun e => e.1.name)) := by
  have h : (keywordEntries es).map Prod.fst =
      (es.filter (fun e => !e.1.kind.positional)).map (fun e => e.1.name) := by
    simp [keywordEntries]
  rw [h]
  exact (List.filter_sublist).map _

theorem keywordEntries_nodup (h : (es.map (fun e => e.1.name)).Nodup) :
    ((keywordEntries es).map Prod.fst).Nodup :=
  h.sublist (keywordEntries_keys_sublist es)

theorem place_same_of_perm {es fs : List (Target × V)} (c : Call V)
    (h : (es.map (fun e => e.1.name)).Nodup) (hp : es.Perm fs)
    (ha : positionals es = positionals fs) : (place es c).Same (place fs c) := by
  refine ⟨?_, ?_⟩
  · rw [place_args, place_args, ha]
  · rw [place_kwargs, place_kwargs]
    exact Dict.setAll_same_of_perm c.kwargs (keywordEntries_nodup h) ((hp.filter _).map _)

theorem place_kwargs_get? (h : (es.map (fun e => e.1.name)).Nodup) (k : String) :
    (place es empty).kwargs.get? k = (keywordEntries es).lookup k := by
  rw [place_kwargs, Dict.get?_setAll _ _ (keywordEntries_nodup h)]
  cases (keywordEntries es).lookup k <;> rfl

theorem mem_keywordEntries (he : e ∈ es) (hk : e.1.kind.positional = false) :
    (e.1.name, e.2) ∈ keywordEntries es :=
  List.mem_map_of_mem (f := fun e : Target × V => (e.1.name, e.2))
    (List.mem_filter.mpr ⟨he, by simp [hk]⟩)

theorem place_kwargs_of_mem (h : (es.map (fun e => e.1.name)).Nodup) (he : e ∈ es)
    (hk : e.1.kind.positional = false) : (place es empty).kwargs.get? e.1.name = some e.2 := by
  rw [place_kwargs_get? h, Dict.lookup_eq_some_iff _ (keywordEntries_nodup h)]
  exact mem_keywordEntries he hk

theorem name_injOn (h : (es.map (fun e => e.1.name)).Nodup) {e f : Target × V} (he : e ∈ es)
    (hf : f ∈ es) (hn : e.1.name = f.1.name) : e = f :=
  List.inj_on_of_nodup_map h he hf hn

theorem mem_of_keywordEntries {x : String × V} (hx : x ∈ keywordEntries es) :
    ∃ e ∈ es, e.1.kind.positional = false ∧ (e.1.name, e.2) = x := by
  obtain ⟨e, he, rfl⟩ := List.mem_map.mp hx
  obtain ⟨hm, hk⟩ := List.mem_filter.mp he
  exact ⟨e, hm, by simpa using hk, rfl⟩

theorem place_kwargs_of_positional (h : (es.map (fun e => e.1.name)).Nodup) (he : e ∈ es)
    (hk : e.1.kind.positional = true) : (place es empty).kwargs.contains e.1.name = false := by
  rw [Dict.contains, place_kwargs_get? h, Bool.eq_false_iff]
  intro hs
  obtain ⟨v, hv⟩ := Option.isSome_iff_exists.mp hs
  rw [Dict.lookup_eq_some_iff _ (keywordEntries_nodup h)] at hv
  obtain ⟨f, hf, hfk, hfe⟩ := mem_of_keywordEntries hv
  have hfe' : f = e := name_injOn h hf he (congrArg Prod.fst hfe)
  rw [hfe', hk] at hfk
  cases hfk

theorem bindFormals_place (hf : fs.map Formal.target = es.map Prod.fst)
    (hs : ∀ e ∈ es, e.1.kind.single = true)
    (hpos : ∀ e ∈ es, e.1.kind.positional = true → kwargs.contains e.1.name = false)
    (hkw : ∀ e ∈ es, e.1.kind.positional = false → kwargs.get? e.1.name = some e.2) :
    bindFormals all kwargs fs (positionals es) =
      .ok (es.map (fun e => (e.1.name, Slot.value e.2))) := by
  induction es generalizing fs with
  | nil =>
    have hfs : fs = [] := by simpa using hf
    subst hfs
    rfl
  | cons e es ih =>
    cases fs with
    | nil => simp at hf
    | cons f fs =>
      obtain ⟨hft, hft'⟩ : f.target = e.1 ∧ fs.map Formal.target = es.map Prod.fst := by
        simpa using hf
      have hrest := ih hft' (fun x hx => hs x (List.mem_cons_of_mem _ hx))
        (fun x hx => hpos x (List.mem_cons_of_mem _ hx))
        (fun x hx => hkw x (List.mem_cons_of_mem _ hx))
      have hse := hs e List.mem_cons_self
      have hpe := hpos e List.mem_cons_self
      have hke := hkw e List.mem_cons_self
      rw [bindFormals.eq_def]
      cases hk : e.1.kind with
      | positionalOnly =>
        have hp : positionals (e :: es) = e.2 :: positionals es := by
          simp [positionals, hk, ParameterKind.positional]
        simp only [hft, hk, hp, hrest]
        rfl
      | positionalOrKeyword =>
        have hp : positionals (e :: es) = e.2 :: positionals es := by
          simp [positionals, hk, ParameterKind.positional]
        have hc : kwargs.contains e.1.name = false := hpe (by rw [hk]; rfl)
        simp only [hft, hk, hp, hrest, hc, Bool.false_eq_true, if_false]
        rfl
      | keywordOnly =>
        have hp : positionals (e :: es) = positionals es := by
          simp [positionals, hk, ParameterKind.positional]
        have hg : kwargs.get? e.1.name = some e.2 := hke (by rw [hk]; rfl)
        simp only [hft, hk, hp, hrest, hg]
        rfl
      | varPositional => simp [hk, ParameterKind.single] at hse
      | varKeyword => simp [hk, ParameterKind.single] at hse

theorem bind_place {fs : List (Formal V)} (hf : fs.map Formal.target = es.map Prod.fst)
    (hs : ∀ e ∈ es, e.1.kind.single = true) (hn : (es.map (fun e => e.1.name)).Nodup) :
    bind fs (place es empty) = .ok (es.map (fun e => (e.1.name, Slot.value e.2))) := by
  have hkeys : (place es empty).kwargs.keys.all (acceptsKey fs) = true := by
    rw [List.all_eq_true]
    intro k hk
    rw [Dict.mem_keys_iff, Dict.contains, place_kwargs_get? hn] at hk
    obtain ⟨v, hv⟩ := Option.isSome_iff_exists.mp hk
    rw [Dict.lookup_eq_some_iff _ (keywordEntries_nodup hn)] at hv
    obtain ⟨e, he, hek, hee⟩ := mem_of_keywordEntries hv
    have ht : e.1 ∈ fs.map Formal.target := hf ▸ List.mem_map_of_mem he
    obtain ⟨f, hfm, hft⟩ := List.mem_map.mp ht
    have hkind := ParameterKind.keyword_of_single (hs e he) hek
    rw [acceptsKey, List.any_eq_true]
    refine ⟨f, hfm, ?_⟩
    have hname : e.1.name = k := congrArg Prod.fst hee
    rw [hft, hkind, hname]
    simp [ParameterKind.keyword]
  rw [bind, hkeys, Bool.or_true, if_pos rfl, place_args]
  exact bindFormals_place hf hs (fun e he hk => place_kwargs_of_positional hn he hk)
    (fun e he hk => place_kwargs_of_mem hn he hk)

theorem bindFormals_congr {d e : Dict String V} (h : d.Same e)
    (hs : ∀ f ∈ fs, f.target.kind.single = true) (args : List V) :
    bindFormals all d fs args = bindFormals all e fs args := by
  induction fs generalizing args with
  | nil => cases args <;> rfl
  | cons f fs ih =>
    have ih' := ih (fun g hg => hs g (List.mem_cons_of_mem _ hg))
    have hf := hs f List.mem_cons_self
    have hg := h f.target.name
    have hc := h.contains f.target.name
    rw [bindFormals.eq_def all d, bindFormals.eq_def all e]
    cases hk : f.target.kind with
    | positionalOnly => cases args <;> simp only [hk, ih']
    | positionalOrKeyword => cases args <;> simp only [hk, ih', hg, hc]
    | keywordOnly => simp only [hk, ih', hg]
    | varPositional => simp [hk, ParameterKind.single] at hf
    | varKeyword => simp [hk, ParameterKind.single] at hf

theorem bind_congr {fs : List (Formal V)} {c d : Call V} (h : c.Same d)
    (hs : ∀ f ∈ fs, f.target.kind.single = true) : bind fs c = bind fs d := by
  have hk : c.kwargs.keys.all (acceptsKey fs) = d.kwargs.keys.all (acceptsKey fs) := by
    rw [Bool.eq_iff_iff, List.all_eq_true, List.all_eq_true]
    have hm : ∀ k, k ∈ c.kwargs.keys ↔ k ∈ d.kwargs.keys := by
      intro k
      rw [Dict.mem_keys_iff, Dict.mem_keys_iff, h.2.contains k]
    exact ⟨fun hc k hkd => hc k ((hm k).mpr hkd), fun hd k hkc => hd k ((hm k).mp hkc)⟩
  rw [bind, bind, hk, h.1, bindFormals_congr h.2 hs]

theorem place_append (es fs : List (Target × V)) (c : Call V) :
    place (es ++ fs) c = place fs (place es c) := by
  induction es generalizing c with
  | nil => rfl
  | cons e es ih => exact ih (c.put e.1 e.2)

theorem place_injective {es fs : List (Target × V)} (ht : es.map Prod.fst = fs.map Prod.fst)
    (hn : (es.map (fun e => e.1.name)).Nodup) (h : (place es empty).Same (place fs empty)) :
    es = fs := by
  have hnf : (fs.map (fun e => e.1.name)).Nodup := by
    have hm : ∀ l : List (Target × V),
        l.map (fun e => e.1.name) = (l.map Prod.fst).map Target.name := by simp
    rwa [hm fs, ← ht, ← hm es]
  have hpos : positionals es = positionals fs := by
    have := h.1
    rw [place_args, place_args] at this
    exact this
  have hkey : ∀ e ∈ es, ∀ f ∈ fs, e.1 = f.1 → e.1.kind.positional = false → e.2 = f.2 := by
    intro e he f hf hef hk
    have h1 := place_kwargs_of_mem hn he hk
    have h2 := place_kwargs_of_mem hnf hf (hef ▸ hk)
    rw [h.2, hef, h2] at h1
    exact (Option.some.inj h1).symm
  clear h hn hnf
  induction es generalizing fs with
  | nil =>
    cases fs with
    | nil => rfl
    | cons f fs => simp at ht
  | cons e es ih =>
    cases fs with
    | nil => simp at ht
    | cons f fs =>
      obtain ⟨hef, ht'⟩ : e.1 = f.1 ∧ es.map Prod.fst = fs.map Prod.fst := by simpa using ht
      have hkey' : ∀ a ∈ es, ∀ b ∈ fs, a.1 = b.1 → a.1.kind.positional = false → a.2 = b.2 :=
        fun a ha b hb => hkey a (List.mem_cons_of_mem _ ha) b (List.mem_cons_of_mem _ hb)
      by_cases hk : e.1.kind.positional = true
      · have hp : e.2 = f.2 ∧ positionals es = positionals fs := by
          simpa [positionals, hk, hef ▸ hk] using hpos
        rw [ih ht' hp.2 hkey', Prod.ext hef hp.1]
      · have hk' : e.1.kind.positional = false := by simpa using hk
        have hp : positionals es = positionals fs := by
          simpa [positionals, hk', hef ▸ hk'] using hpos
        have he2 := hkey e List.mem_cons_self f List.mem_cons_self hef hk'
        rw [ih ht' hp hkey', Prod.ext hef he2]

theorem bind_no_keywords (fs : List (Formal V)) (args : List V) :
    bind fs ⟨args, ∅⟩ = bindFormals fs ∅ fs args := by
  have hall : (∅ : Dict String V).keys.all (acceptsKey fs) = true := rfl
  rw [bind, hall, Bool.or_true, if_pos rfl]

theorem bind_one_positional (h : f.target.kind.positional = true) (v : V) :
    bind [f] ⟨[v], ∅⟩ = .ok [(f.target.name, .value v)] := by
  rw [bind_no_keywords, bindFormals]
  cases hk : f.target.kind with
  | positionalOnly => rfl
  | positionalOrKeyword => rfl
  | varPositional | keywordOnly | varKeyword => simp [hk, ParameterKind.positional] at h

theorem bind_one_keyword (h : f.target.kind = .keywordOnly) (v : V) :
    ∃ e, bind [f] ⟨[v], ∅⟩ = .error e := by
  rw [bind_no_keywords, bindFormals, h]
  cases hd : f.default with
  | none => exact ⟨_, rfl⟩
  | some d => exact ⟨_, rfl⟩

-- where a value comes from in a call by keywords only
def Supplies (kwargs : Dict String V) (f : Formal V) (v : V) : Prop :=
  f.target.kind.keyword = true ∧ kwargs.get? f.target.name = some v ∨ f.default = some v

theorem fallback_ok {name : String} {o : Option V} {v : V} (h : fallback name o = .ok v) :
    o = some v := by
  cases o with
  | none => cases h
  | some w => exact congrArg some (Except.ok.inj h)

theorem ok_of_bind {A B : Type} {x : Except CallError A} {g : A → Except CallError B} {b : B}
    (h : x.bind g = .ok b) : ∃ a, x = .ok a ∧ g a = .ok b := by
  cases x with
  | error e => cases h
  | ok a => exact ⟨a, rfl, h⟩

theorem bindFormals_keywords_cons (h : bindFormals all kwargs (f :: fs) [] = .ok bound) :
    ∃ slot tail, bound = (f.target.name, slot) :: tail ∧
      bindFormals all kwargs fs [] = .ok tail ∧ ∀ v, slot = .value v → Supplies kwargs f v := by
  rw [bindFormals.eq_def] at h
  cases hk : f.target.kind with
  | varPositional =>
    simp only [hk] at h
    obtain ⟨tail, ht, hr⟩ := ok_of_bind h
    cases hr
    exact ⟨_, tail, rfl, ht, fun v hv => by cases hv⟩
  | varKeyword =>
    simp only [hk] at h
    obtain ⟨tail, ht, hr⟩ := ok_of_bind h
    cases hr
    exact ⟨_, tail, rfl, ht, fun v hv => by cases hv⟩
  | positionalOnly =>
    simp only [hk] at h
    obtain ⟨v, hv, hr⟩ := ok_of_bind h
    obtain ⟨tail, ht, hr⟩ := ok_of_bind hr
    cases hr
    refine ⟨_, tail, rfl, ht, fun w hw => ?_⟩
    cases hw
    exact .inr (fallback_ok hv)
  | keywordOnly | positionalOrKeyword =>
    simp only [hk] at h
    obtain ⟨v, hv, hr⟩ := ok_of_bind h
    obtain ⟨tail, ht, hr⟩ := ok_of_bind hr
    cases hr
    refine ⟨_, tail, rfl, ht, fun w hw => ?_⟩
    cases hw
    have hsome := fallback_ok hv
    cases hg : kwargs.get? f.target.name with
    | none =>
      rw [hg] at hsome
      exact .inr hsome
    | some u =>
      rw [hg] at hsome
      cases hsome
      exact .inl ⟨by rw [hk]; rfl, hg⟩

theorem bindFormals_keywords (h : bindFormals all kwargs fs [] = .ok bound) :
    bound.map Prod.fst = fs.map (fun f => f.target.name) ∧
      ∀ n v, (n, .value v) ∈ bound → ∃ f ∈ fs, f.target.name = n ∧ Supplies kwargs f v := by
  induction fs generalizing bound with
  | nil =>
    cases h
    exact ⟨rfl, fun n v hm => by cases hm⟩
  | cons f fs ih =>
    obtain ⟨slot, tail, rfl, htail, hslot⟩ := bindFormals_keywords_cons h
    obtain ⟨hnames, hvalues⟩ := ih htail
    refine ⟨by rw [List.map_cons, List.map_cons, hnames], fun n v hm => ?_⟩
    rcases List.mem_cons.mp hm with heq | hm
    · cases heq
      exact ⟨f, List.mem_cons_self, rfl, hslot v rfl⟩
    · obtain ⟨g, hg, hn, hs⟩ := hvalues n v hm
      exact ⟨g, List.mem_cons_of_mem _ hg, hn, hs⟩

theorem bindFormals_ok_of_bind {fs : List (Formal V)} {c : Call V} (h : bind fs c = .ok bound) :
    bindFormals fs c.kwargs fs c.args = .ok bound := by
  rw [bind] at h
  split at h
  · exact h
  · cases h

theorem bind_keywords {fs : List (Formal V)} (value : String → V)
    (hkind : ∀ f ∈ fs, f.target.kind.keyword = true)
    (hvalue : ∀ f ∈ fs, kwargs.get? f.target.name = some (value f.target.name))
    (hkeys : ∀ k ∈ kwargs.keys, k ∈ fs.map (fun f => f.target.name)) :
    bind fs ⟨[], kwargs⟩ =
      .ok (fs.map (fun f => (f.target.name, .value (value f.target.name)))) := by
  have hall : kwargs.keys.all (acceptsKey fs) = true := by
    rw [List.all_eq_true]
    intro k hk
    obtain ⟨f, hf, rfl⟩ := List.mem_map.mp (hkeys k hk)
    rw [acceptsKey, List.any_eq_true]
    exact ⟨f, hf, by simp [hkind f hf]⟩
  rw [bind, hall, Bool.or_true, if_pos rfl]
  -- by induction on the formals still to bind, of all of them
  have hfill : ∀ gs : List (Formal V), (∀ f ∈ gs, f ∈ fs) → bindFormals fs kwargs gs [] =
      .ok (gs.map (fun f => (f.target.name, .value (value f.target.name)))) := by
    intro gs hgs
    induction gs with
    | nil => rfl
    | cons f gs ih =>
      have hf := hgs f List.mem_cons_self
      have hrest := ih (fun g hg => hgs g (List.mem_cons_of_mem _ hg))
      have hget := hvalue f hf
      have hkey := hkind f hf
      rw [bindFormals.eq_def]
      cases hk : f.target.kind with
      | keywordOnly | positionalOrKeyword =>
        simp only [hk, hget, hrest]
        rfl
      | positionalOnly | varPositional | varKeyword =>
        rw [hk] at hkey
        cases hkey
  exact hfill fs (fun f hf => hf)

end Call

end Python
