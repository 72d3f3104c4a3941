import DjangoBolt.Routing.ParamNames

open Python

namespace DjangoBolt.Routing

-- a match delivers a value under each parameter of the template it belongs to
structure TemplateSyntax {H : Type} (T : MatchRouter (Route H)) : Prop where
  params : ∀ entries tree path v params, T.insertAll entries = .ok tree →
    T.lookup tree path = some (v, params) → ∃ template, (template, v) ∈ entries ∧
      ∀ n, n ∈ params.map Prod.fst ↔ n ∈ (placeholders none template.toList).map String.ofList

structure NamesAgree {H : Type} (T : MatchRouter (Route H)) (W : WordClass) (path : String) :
    Prop where
  binder : ∀ n, n ∈ routerNames path ↔ n ∈ extractPathParams W path
  urls : ∀ n, n ∈ routerNames path ↔ n ∈ urlNames path
  requests : ∀ (rs : List (Registration H)) router, (rs.map Registration.handlerId).Nodup →
    (Router.new T).registerAll rs = .ok router → ∀ r ∈ rs, r.path = path →
      ∀ p m, router.find r.method p = some m → m.route = r.route →
        ∀ n, (∃ params, m.pathParams = some params ∧ params.contains n = true) ↔
          n ∈ extractPathParams W path

section

variable (W : WordClass) (path : String)

def Word (w : List Char) : Prop := w ≠ [] ∧ ∀ c ∈ w, W.isWord c = true

def NamedBy (g w : List Char) : Prop := g = w ∨ ∃ t, t ≠ [] ∧ g = w ++ ':' :: t

def EmptyType (g : List Char) : Prop := ∃ n, ':' ∉ n ∧ g = n ++ [':']

def groupsOf : List (List Char × Bool) := braceGroups none path.toList

def Named (w : List Char) : Prop := Word W w ∧ ∃ g, (g, true) ∈ groupsOf path ∧ NamedBy g w

-- `{word}` or `{word:word}`, with the brace that opens the group or a later one inside it
def Enclosed (w : List Char) : Prop :=
  ∃ g, (g, true) ∈ groupsOf path ∧ ∃ s ∈ g :: openings g, Reads W.isWord W.isWord s w

structure WellNamed : Prop where
  named : ∀ g, (g, true) ∈ groupsOf path → EmptyType g ∨ ∃ w, Word W w ∧ NamedBy g w
  spare : ∀ g closed, (g, closed) ∈ groupsOf path → closed = false ∨ EmptyType g →
    ∀ n ∈ delivered g, Named W path n
  enclosed : ∀ w, Named W path w → Enclosed W path w
  covered : ∀ w, Enclosed W path w → Named W path w

end

section

variable (W : WordClass)

theorem WordClass.not_word (c : Char) (hc : c.toNat < 128)
    (hother : (c.isAlphanum || c = '_') = false) : W.isWord c = false := by
  rw [W.ascii c hc, hother]

theorem delimited_word : Delimited W.isWord W.isWord :=
  ⟨W.not_word ':' (by decide) (by decide), W.not_word '}' (by decide) (by decide),
    W.not_word '}' (by decide) (by decide)⟩

theorem delimited_url :
    Delimited (fun c => c ≠ '}' && c ≠ ':' : Char → Bool) (fun c => c ≠ '}') :=
  ⟨by decide, by decide, by decide⟩

variable {W}

theorem Word.not_mem {w : List Char} (h : Word W w) {c : Char} (hc : W.isWord c = false) :
    c ∉ w :=
  fun hm => Bool.false_ne_true (hc ▸ h.2 c hm)

theorem Word.plain {w : List Char} (h : Word W w) :
    ':' ∉ w ∧ '}' ∉ w ∧ '{' ∉ w ∧ '*' ∉ w :=
  ⟨h.not_mem (W.not_word ':' (by decide) (by decide)),
    h.not_mem (W.not_word '}' (by decide) (by decide)),
    h.not_mem (W.not_word '{' (by decide) (by decide)),
    h.not_mem (W.not_word '*' (by decide) (by decide))⟩

theorem Reads.no_brace {s w : List Char} (h : Reads W.isWord W.isWord s w) : '{' ∉ s := by
  have hbrace : W.isWord '{' = false := W.not_word '{' (by decide) (by decide)
  obtain ⟨-, hw, rfl | ⟨t, -, ht, rfl⟩⟩ := h
  · exact fun hm => Bool.false_ne_true (hbrace ▸ hw '{' hm)
  · intro hm
    rcases List.mem_append.mp hm with hm | hm
    · exact Bool.false_ne_true (hbrace ▸ hw '{' hm)
    · rcases List.mem_cons.mp hm with heq | hm
      · exact absurd heq (by decide)
      · exact Bool.false_ne_true (hbrace ▸ ht '{' hm)

theorem FirstReads.exists {name type : Char → Bool} {ss : List (List Char)} {w : List Char}
    (h : FirstReads name type ss w) : ∃ s ∈ ss, Reads name type s w := by
  induction ss with
  | nil => exact h.elim
  | cons s ss ih =>
    rcases h with h | ⟨-, h⟩
    · exact ⟨s, List.mem_cons_self, h⟩
    · obtain ⟨s', hs', h⟩ := ih h
      exact ⟨s', List.mem_cons_of_mem _ hs', h⟩

theorem mem_openings {s g : List Char} (h : s ∈ openings g) : '{' ∈ g ∧ s <:+ g := by
  induction g with
  | nil => cases h
  | cons c g ih =>
    rw [openings] at h
    split at h
    · rename_i hc
      subst hc
      refine ⟨List.mem_cons_self, ?_⟩
      rcases List.mem_cons.mp h with rfl | h
      · exact List.suffix_cons _ _
      · exact (ih h).2.trans (List.suffix_cons _ _)
    · exact ⟨List.mem_cons_of_mem _ (ih h).1, (ih h).2.trans (List.suffix_cons _ _)⟩

theorem openings_split {s g : List Char} (h : s ∈ openings g) :
    ∃ pre, openings g = pre ++ openings ('{' :: s) ∧ ∀ s' ∈ pre, '{' ∈ s' := by
  induction g with
  | nil => cases h
  | cons c g ih =>
    rw [openings] at h ⊢
    split at h
    · rename_i hc
      subst hc
      rw [if_pos rfl]
      rcases List.mem_cons.mp h with rfl | h
      · exact ⟨[], by rw [openings, if_pos rfl]; rfl, fun s' hs' => absurd hs' List.not_mem_nil⟩
      · obtain ⟨pre, hpre, hall⟩ := ih h
        exact ⟨g :: pre, by rw [hpre]; rfl, List.forall_mem_cons.mpr ⟨(mem_openings h).1, hall⟩⟩
    · rename_i hc
      rw [if_neg hc]
      exact ih h

theorem firstReads_word_iff {g w : List Char} :
    FirstReads W.isWord W.isWord (g :: openings g) w ↔
      ∃ s ∈ g :: openings g, Reads W.isWord W.isWord s w := by
  refine ⟨FirstReads.exists, ?_⟩
  rintro ⟨s, hs, hreads⟩
  have hskip : ∀ pre : List (List Char), (∀ s' ∈ pre, '{' ∈ s') → ∀ ss,
      FirstReads W.isWord W.isWord ss w → FirstReads W.isWord W.isWord (pre ++ ss) w := by
    intro pre hall ss hss
    induction pre with
    | nil => exact hss
    | cons s' pre ih =>
      rw [List.forall_mem_cons] at hall
      exact .inr ⟨fun v hv => hv.no_brace hall.1, ih hall.2⟩
  have hhere : FirstReads W.isWord W.isWord (openings ('{' :: s)) w := by
    rw [openings, if_pos rfl]
    exact .inl hreads
  -- the text itself is the opening of the group in braces
  have hmem : s ∈ openings ('{' :: g) := by
    rw [openings, if_pos rfl]
    exact hs
  obtain ⟨pre, hpre, hall⟩ := openings_split hmem
  rw [openings, if_pos rfl] at hpre
  rw [hpre]
  exact hskip pre hall _ hhere

end

section

variable {W : WordClass} {path : String} {n : String}

theorem group_no_brace {cs g : List Char} {closed : Bool} (h : (g, closed) ∈ braceGroups none cs) :
    '}' ∉ g := by
  induction cs using groups_induction with
  | nil => cases h
  | outside c cs hc ih =>
    rw [braceGroups, if_neg hc] at h
    exact ih h
  | closed g' rest hg ih =>
    rw [braceGroups, if_pos rfl, braceGroups_open hg] at h
    rcases List.mem_cons.mp h with heq | h
    · rw [Prod.mk.injEq] at heq
      rw [heq.1]
      exact hg
    · exact ih h
  | unclosed g' hg =>
    rw [braceGroups, if_pos rfl, braceGroups_unclosed hg, List.mem_singleton, Prod.mk.injEq] at h
    rw [h.1]
    exact hg

theorem group_cases (g : List Char) :
    (g = [] ∨ ∃ t, g = ':' :: t) ∨ EmptyType g ∨ ∃ n, n ≠ [] ∧ ':' ∉ n ∧ NamedBy g n := by
  by_cases hcolon : ':' ∈ g
  · obtain ⟨n, t, rfl, hn⟩ := List.eq_append_cons_of_mem hcolon
    by_cases hempty : n = []
    · subst hempty
      exact .inl (.inr ⟨t, rfl⟩)
    · by_cases ht : t = []
      · subst ht
        exact .inr (.inl ⟨n, hn, rfl⟩)
      · exact .inr (.inr ⟨n, hempty, hn, .inr ⟨t, ht, rfl⟩⟩)
  · by_cases hempty : g = []
    · exact .inl (.inl hempty)
    · exact .inr (.inr ⟨g, hempty, hcolon, .inl rfl⟩)

theorem renderParam_named {g w : List Char} (hw : ':' ∉ w) (h : NamedBy g w) :
    renderParam g = w ++ ['}'] ∨ renderParam g = '*' :: w ++ ['}'] := by
  rcases h with rfl | ⟨t, -, rfl⟩
  · rw [renderParam, Splitting.span_self hw]
    exact .inl rfl
  · rw [renderParam, Splitting.span_append hw]
    dsimp only
    split
    · exact .inr rfl
    · exact .inl rfl

theorem delivered_named {g w : List Char} (hw : Word W w) (h : NamedBy g w) : delivered g = [w] := by
  obtain ⟨hcolon, hclose, hopen, hstar⟩ := hw.plain
  obtain ⟨c, w', rfl⟩ := List.exists_cons_of_ne_nil hw.1
  rw [List.mem_cons, not_or] at hopen hstar
  rcases renderParam_named hcolon h with heq | heq
  · rw [delivered, heq, List.cons_append, placeholders_single (Ne.symm hopen.1),
      ← List.cons_append, placeholders_some hclose, List.nil_append, if_neg]
    · rfl
    · rw [List.head?_cons, Option.some.injEq]
      exact Ne.symm hstar.1
  · have hclose' : '}' ∉ '*' :: c :: w' := by
      rw [List.mem_cons, not_or]
      exact ⟨by decide, hclose⟩
    rw [delivered, heq, List.cons_append, placeholders_single (by decide), ← List.cons_append,
      placeholders_some hclose', List.nil_append]
    rfl

theorem delivered_nameless {g : List Char} (h : g = [] ∨ ∃ t, g = ':' :: t) : [] ∈ delivered g := by
  rcases h with rfl | ⟨t, rfl⟩
  · decide
  · rw [delivered, renderParam, ← List.nil_append (':' :: t), Splitting.span_append List.not_mem_nil]
    dsimp only
    split
    · decide
    · decide

theorem reads_url_iff {g w : List Char} (hg : '}' ∉ g) :
    Reads (fun c => c ≠ '}' && c ≠ ':' : Char → Bool) (fun c => c ≠ '}') g w ↔
      w ≠ [] ∧ ':' ∉ w ∧ NamedBy g w := by
  constructor
  · rintro ⟨hne, hw, h⟩
    refine ⟨hne, fun hcolon => by simpa using hw ':' hcolon, ?_⟩
    rcases h with rfl | ⟨t, ht, -, rfl⟩
    · exact .inl rfl
    · exact .inr ⟨t, ht, rfl⟩
  · rintro ⟨hne, hcolon, h⟩
    have hname : ∀ {u : List Char}, '}' ∉ u → ':' ∉ u → ∀ c ∈ u, (c ≠ '}' && c ≠ ':' : Bool) = true := by
      intro u hbrace hcolon c hc
      rw [Bool.and_eq_true, decide_eq_true_eq, decide_eq_true_eq]
      exact ⟨fun heq => hbrace (heq ▸ hc), fun heq => hcolon (heq ▸ hc)⟩
    rcases h with rfl | ⟨t, ht, rfl⟩
    · exact ⟨hne, hname hg hcolon, .inl rfl⟩
    · rw [List.mem_append, List.mem_cons, not_or, not_or] at hg
      refine ⟨hne, hname hg.1 hcolon, .inr ⟨t, ht, fun c hc => ?_, rfl⟩⟩
      exact decide_eq_true (fun heq => hg.2.2 (heq ▸ hc))

theorem EmptyType.unread {g s w : List Char} (h : EmptyType g) (hbrace : '}' ∉ g)
    (hs : s ∈ g :: openings g) :
    ¬Reads (fun c => c ≠ '}' && c ≠ ':' : Char → Bool) (fun c => c ≠ '}') s w := by
  intro hreads
  have hsuffix : s <:+ g := by
    rcases List.mem_cons.mp hs with rfl | hs
    · exact List.suffix_rfl
    · exact (mem_openings hs).2
  obtain ⟨hne, hw, hnamed⟩ := (reads_url_iff (fun hm => hbrace (hsuffix.subset hm))).mp hreads
  obtain ⟨n, hn, rfl⟩ := h
  obtain ⟨start, hstart⟩ := hsuffix
  rcases List.eq_nil_or_concat' s with rfl | ⟨n', d, rfl⟩
  · rcases hnamed with rfl | ⟨t, -, heq⟩
    · exact hne rfl
    · exact List.cons_ne_nil _ _ (List.append_eq_nil_iff.mp heq.symm).2
  · rw [← List.append_assoc] at hstart
    obtain ⟨hname, hd⟩ := List.append_inj' hstart rfl
    rw [List.singleton_inj] at hd
    subst hd
    have hn' : ':' ∉ n' := fun hm => hn (hname ▸ List.mem_append_right _ hm)
    rcases hnamed with rfl | ⟨t, ht, heq⟩
    · exact hw (by simp)
    · exact ht (Splitting.append_cons_inj hn' hw heq).2.symm

theorem mem_map_ofList {l : List (List Char)} : n ∈ l.map String.ofList ↔ n.toList ∈ l := by
  rw [List.mem_map]
  constructor
  · rintro ⟨cs, hcs, rfl⟩
    rwa [String.toList_ofList]
  · exact fun h => ⟨n.toList, h, String.ofList_toList⟩

theorem mem_groupNames {name type : Char → Bool} {typeGroup : Option Nat} :
    n ∈ groupNames (bracedPattern name typeGroup type) path ↔
      n.toList ∈ names name typeGroup type path.toList := by
  rw [← mem_map_ofList, names, List.map_map]
  rfl

theorem mem_routerNames :
    n ∈ routerNames path ↔ ∃ g closed, (g, closed) ∈ groupsOf path ∧ n.toList ∈ delivered g := by
  rw [routerNames, mem_map_ofList, convertPath, String.toList_ofList, mem_placeholders_iff]
  rfl

theorem mem_extractPathParams : n ∈ extractPathParams W path ↔ Enclosed W path n.toList := by
  rw [extractPathParams, pathParamRegex, mem_groupNames, mem_names_iff (delimited_word W), Enclosed]
  simp only [firstReads_word_iff]
  rfl

theorem mem_urlNames {n : String} :
    n ∈ urlNames path ↔ ∃ g, (g, true) ∈ groupsOf path ∧
      FirstReads (fun c => c ≠ '}' && c ≠ ':' : Char → Bool) (fun c => c ≠ '}')
        (g :: openings g) n.toList := by
  rw [urlNames, paramRe, mem_groupNames, mem_names_iff delimited_url]
  rfl

theorem mem_urlNames_of_named {g : List Char} (hg : (g, true) ∈ groupsOf path)
    (hne : n.toList ≠ []) (hcolon : ':' ∉ n.toList) (h : NamedBy g n.toList) : n ∈ urlNames path :=
  mem_urlNames.mpr ⟨g, hg, .inl ((reads_url_iff (group_no_brace hg)).mpr ⟨hne, hcolon, h⟩)⟩

end

section

variable {W : WordClass} {path : String} {n : String}

theorem WellNamed.mem_routerNames (h : WellNamed W path) :
    n ∈ routerNames path ↔ Named W path n.toList := by
  rw [DjangoBolt.Routing.mem_routerNames]
  constructor
  · rintro ⟨g, closed, hg, hn⟩
    cases closed with
    | false => exact h.spare g false hg (.inl rfl) _ hn
    | true =>
      rcases h.named g hg with hempty | ⟨w, hw, hnamed⟩
      · exact h.spare g true hg (.inr hempty) _ hn
      · rw [delivered_named hw hnamed, List.mem_singleton] at hn
        rw [hn]
        exact ⟨hw, g, hg, hnamed⟩
  · rintro ⟨hw, g, hg, hnamed⟩
    exact ⟨g, true, hg, by rw [delivered_named hw hnamed]; exact List.mem_singleton_self _⟩

theorem named_of_urls
    (hall : ∀ g, (g, true) ∈ groupsOf path → EmptyType g ∨ ∃ w, Word W w ∧ NamedBy g w)
    (hn : n ∈ urlNames path) : Named W path n.toList := by
  obtain ⟨g, hg, hfirst⟩ := mem_urlNames.mp hn
  rcases hall g hg with hempty | ⟨w, hw, hnamed⟩
  · obtain ⟨s, hs, hreads⟩ := hfirst.exists
    exact absurd hreads (hempty.unread (group_no_brace hg) hs)
  · have hwhole := (reads_url_iff (group_no_brace hg)).mpr ⟨hw.1, hw.plain.1, hnamed⟩
    rcases hfirst with hreads | ⟨hnone, -⟩
    · rw [hreads.sole delimited_url hwhole]
      exact ⟨hw, g, hg, hnamed⟩
    · exact absurd hwhole (hnone w)

theorem WellNamed.mem_urlNames (h : WellNamed W path) :
    n ∈ urlNames path ↔ Named W path n.toList := by
  constructor
  · exact named_of_urls h.named
  · rintro ⟨hw, g, hg, hnamed⟩
    exact mem_urlNames_of_named hg hw.1 hw.plain.1 hnamed

theorem WellNamed.mem_extractPathParams (h : WellNamed W path) :
    n ∈ extractPathParams W path ↔ Named W path n.toList := by
  rw [DjangoBolt.Routing.mem_extractPathParams]
  exact ⟨h.covered _, h.enclosed _⟩

theorem Enclosed.word {w : List Char} (h : Enclosed W path w) : Word W w := by
  obtain ⟨g, -, s, -, hreads⟩ := h
  exact ⟨hreads.1, hreads.2.1⟩

theorem wellNamed_of_agree (hbinder : ∀ n, n ∈ routerNames path ↔ n ∈ extractPathParams W path)
    (hurls : ∀ n, n ∈ routerNames path ↔ n ∈ urlNames path) : WellNamed W path := by
  have hword : ∀ {w : List Char}, String.ofList w ∈ routerNames path → Word W w := by
    intro w hw
    have henclosed := mem_extractPathParams.mp ((hbinder _).mp hw)
    rw [String.toList_ofList] at henclosed
    exact henclosed.word
  -- a group without a name would deliver under the empty one
  have hnameless : ∀ g closed, (g, closed) ∈ groupsOf path → ¬(g = [] ∨ ∃ t, g = ':' :: t) := by
    intro g closed hg hempty
    have hin : String.ofList [] ∈ routerNames path :=
      mem_routerNames.mpr ⟨g, closed, hg, by
        rw [String.toList_ofList]
        exact delivered_nameless hempty⟩
    exact (hword hin).1 rfl
  have hnamed : ∀ g, (g, true) ∈ groupsOf path →
      EmptyType g ∨ ∃ w, Word W w ∧ NamedBy g w := by
    intro g hg
    rcases group_cases g with hempty | hempty | ⟨n, hne, hcolon, hn⟩
    · exact absurd hempty (hnameless g true hg)
    · exact .inl hempty
    · have hurl : String.ofList n ∈ urlNames path :=
        mem_urlNames_of_named hg (by rwa [String.toList_ofList]) (by rwa [String.toList_ofList])
          (by rwa [String.toList_ofList])
      exact .inr ⟨n, hword ((hurls _).mpr hurl), hn⟩
  refine ⟨hnamed, fun g closed hg _ n hn => ?_, fun w hw => ?_, fun w hw => ?_⟩
  · have hrouter : String.ofList n ∈ routerNames path :=
      mem_routerNames.mpr ⟨g, closed, hg, by rwa [String.toList_ofList]⟩
    have hin := named_of_urls hnamed ((hurls _).mp hrouter)
    rwa [String.toList_ofList] at hin
  · obtain ⟨hword, g, hg, hby⟩ := hw
    have hurl : String.ofList w ∈ urlNames path :=
      mem_urlNames_of_named hg (by rw [String.toList_ofList]; exact hword.1)
        (by rw [String.toList_ofList]; exact hword.plain.1) (by rwa [String.toList_ofList])
    have hin := mem_extractPathParams.mp ((hbinder _).mp ((hurls _).mpr hurl))
    rwa [String.toList_ofList] at hin
  · have hin : String.ofList w ∈ extractPathParams W path :=
      mem_extractPathParams.mpr (by rwa [String.toList_ofList])
    have hurl := named_of_urls hnamed ((hurls _).mp ((hbinder _).mpr hin))
    rwa [String.toList_ofList] at hurl

end

section

variable {H : Type} {T : MatchRouter (Route H)} {W : WordClass} {path : String}

theorem static_no_names (h : isStaticPath path = true) (n : String) : n ∉ routerNames path := by
  have hgroups : ∀ cs : List Char, '{' ∉ cs → braceGroups none cs = [] := by
    intro cs
    induction cs with
    | nil => exact fun _ => rfl
    | cons c cs ih =>
      intro hcs
      rw [List.mem_cons, not_or] at hcs
      rw [braceGroups, if_neg (Ne.symm hcs.1), ih hcs.2]
  rw [mem_routerNames, groupsOf, hgroups _ (isStaticPath_iff.mp h)]
  rintro ⟨g, closed, hg, -⟩
  cases hg

theorem requests_of_binder (hT : TemplateSyntax T)
    (hbinder : ∀ n, n ∈ routerNames path ↔ n ∈ extractPathParams W path)
    {rs : List (Registration H)} {router : Router T}
    (hids : (rs.map Registration.handlerId).Nodup)
    (hrun : (Router.new T).registerAll rs = .ok router) {r : Registration H} (hr : r ∈ rs)
    (hpath : r.path = path) {p : String} {m : RouteMatch H}
    (hfind : router.find r.method p = some m) (hroute : m.route = r.route) (n : String) :
    (∃ params, m.pathParams = some params ∧ params.contains n = true) ↔
      n ∈ extractPathParams W path := by
  have hsole : ∀ r' ∈ ofMethod rs r.method, r'.route = r.route → r' = r := by
    intro r' hr' heq
    exact List.inj_on_of_nodup_map hids (mem_ofMethod.mp hr').1 hr (congrArg Route.handlerId heq)
  obtain ⟨tree, htree, hfound⟩ := found_of_registerAll hrun r.method
  rw [hfound, foundBy] at hfind
  rw [← hbinder]
  cases hstatic : lastStatic (ofMethod rs r.method) p with
  | some route =>
    rw [hstatic, Option.some.injEq] at hfind
    subst hfind
    obtain ⟨r', hr', rfl⟩ := Option.map_eq_some_iff.mp hstatic
    have hin := List.mem_filter.mp (List.mem_of_getLast? hr')
    rw [Bool.and_eq_true] at hin
    have heq := hsole r' hin.1 hroute
    subst heq
    refine iff_of_false ?_ (static_no_names (hpath ▸ hin.2.1) n)
    rintro ⟨params, hparams, -⟩
    cases hparams
  | none =>
    rw [hstatic] at hfind
    obtain ⟨⟨v, params⟩, hlookup, rfl⟩ := Option.map_eq_some_iff.mp hfind
    obtain ⟨template, hmem, hnames⟩ := hT.params _ _ _ _ _ htree hlookup
    obtain ⟨r', hr', hentry⟩ := List.mem_map.mp hmem
    rw [Registration.entry, Prod.mk.injEq] at hentry
    obtain ⟨rfl, rfl⟩ := hentry
    have heq := hsole r' (List.mem_filter.mp hr').1 hroute
    subst heq
    rw [routerNames, ← hpath, ← hnames]
    constructor
    · rintro ⟨params', hparams, hn⟩
      cases hparams
      rw [Dict.ofList, Dict.contains_setAll] at hn
      exact hn.resolve_right (by simp [Dict.contains])
    · intro hn
      refine ⟨_, rfl, ?_⟩
      rw [Dict.ofList, Dict.contains_setAll]
      exact .inl hn

end

theorem namesAgree_iff {H : Type} {T : MatchRouter (Route H)} (hT : TemplateSyntax T)
    (W : WordClass) (path : String) : NamesAgree T W path ↔ WellNamed W path := by
  constructor
  · intro h
    exact wellNamed_of_agree h.binder h.urls
  · intro h
    have hbinder : ∀ n, n ∈ routerNames path ↔ n ∈ extractPathParams W path :=
      fun n => h.mem_routerNames.trans h.mem_extractPathParams.symm
    exact ⟨hbinder, fun n => h.mem_routerNames.trans h.mem_urlNames.symm,
      fun rs router hids hrun r hr hpath p m hfind hroute n =>
        requests_of_binder hT hbinder hids hrun hr hpath hfind hroute n⟩

section

theorem placeholders_sole {template : String} {start name : List Char}
    (h : soleTemplate template = some (start, name)) :
    placeholders none template.toList = [name] := by
  obtain ⟨htext, hstart, hne, hclose, halpha⟩ := soleTemplate_some h
  obtain ⟨c, name', rfl⟩ := List.exists_cons_of_ne_nil hne
  have hc : c ≠ '{' ∧ c ≠ '*' := by
    have hletter := halpha c List.mem_cons_self
    constructor
    all_goals
      rintro rfl
      exact absurd hletter (by decide)
  rw [htext]
  clear htext h
  induction start with
  | nil =>
    rw [List.nil_append, List.cons_append, placeholders_single hc.1, ← List.cons_append,
      placeholders_some hclose, List.nil_append, if_neg]
    · rfl
    · rw [List.head?_cons, Option.some.injEq]
      exact hc.2
  | cons d start ih =>
    rw [List.mem_cons, not_or] at hstart
    rw [List.cons_append, placeholders_outside (Ne.symm hstart.1), ih hstart.2]

theorem soleRouter_templateSyntax {H : Type} : TemplateSyntax (soleRouter (Route H)) := by
  refine ⟨fun entries tree path v params hinsert hlookup => ?_⟩
  rcases soleInsert_foldlM hinsert with ⟨-, rfl⟩ | ⟨template, start, name, w, rfl, htemplate, rfl⟩
  · cases hlookup
  · replace hlookup : soleLookup (some (start, name, w)) path = some (v, params) := hlookup
    rw [soleLookup] at hlookup
    split at hlookup
    · rw [Option.some.injEq, Prod.mk.injEq] at hlookup
      obtain ⟨rfl, rfl⟩ := hlookup
      refine ⟨template, List.mem_singleton_self _, fun n => ?_⟩
      rw [placeholders_sole htemplate]
      simp
    · cases hlookup

def asciiWord : WordClass where
  isWord c := c.isAlphanum || c = '_'
  ascii _ _ := rfl

end

theorem namesAgree_iff_users :
    NamesAgree (soleRouter (Route Unit)) asciiWord "/users/{id:int}" ↔
      WellNamed asciiWord "/users/{id:int}" :=
  namesAgree_iff soleRouter_templateSyntax asciiWord _

-- a hyphen is no `\w`
theorem namesAgree_hyphen : ¬NamesAgree (soleRouter (Route Unit)) asciiWord "/a/{user-id}" := by
  intro h
  exact absurd ((h.binder "user-id").mp (by decide +kernel)) (by decide +kernel)

end DjangoBolt.Routing
