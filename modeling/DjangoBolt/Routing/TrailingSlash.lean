import DjangoBolt.Asgi.Mounts
import DjangoBolt.Dispatch.App
import DjangoBolt.Foundation.Slashes
import DjangoBolt.Routing.Router

namespace DjangoBolt.Routing

open Asgi (AsgiMount findMountInSlice)

section

-- the routes of `matchit`: a parameter takes some characters of one segment, a catch-all the rest
-- of the path, and a doubled brace stands for itself
inductive Fits : List Char → List Char → Prop where
  | nil : Fits [] []
  | literal {c : Char} {template path : List Char} : c ≠ '{' → c ≠ '}' → Fits template path →
      Fits (c :: template) (c :: path)
  | openBrace {template path : List Char} : Fits template path →
      Fits ('{' :: '{' :: template) ('{' :: path)
  | closeBrace {template path : List Char} : Fits template path →
      Fits ('}' :: '}' :: template) ('}' :: path)
  | param {name value template path : List Char} : name ≠ [] → name.head? ≠ some '*' →
      name.head? ≠ some '{' → '}' ∉ name → value ≠ [] → '/' ∉ value → Fits template path →
      Fits ('{' :: (name ++ '}' :: template)) (value ++ path)
  | catchAll {name value : List Char} : '}' ∉ name → value ≠ [] →
      Fits ('{' :: '*' :: (name ++ ['}'])) value

variable {H : Type} (M : MatchRouter (Route H))

structure TemplateMatching : Prop where
  fits : ∀ entries tree path v params, M.insertAll entries = .ok tree →
    M.lookup tree path = some (v, params) →
      ∃ template, (template, v) ∈ entries ∧ Fits template.toList path.toList
  found : ∀ entries tree template v path, M.insertAll entries = .ok tree →
    (template, v) ∈ entries → Fits template.toList path.toList →
      (M.lookup tree path).isSome = true

def Registration.Matches (r : Registration H) (path : String) : Prop :=
  if r.isStatic then path = r.path else Fits (convertPath r.path).toList path.toList

def Matched (rs : List (Registration H)) (method path : String) : Prop :=
  ∃ r ∈ rs, r.method = method ∧ r.Matches path

end

section

variable {H App : Type} {M : MatchRouter (Route H)}

structure ServerState (App : Type) where
  asgiMounts : List (AsgiMount App)
  globalCors : Bool

inductive Resolution (H App : Type) where
  | matched (m : RouteMatch H)
  | permanentRedirect (location : String)
  | allow (methods : List String)
  | mount (m : AsgiMount App)
  | preflight
  | notFound

def stripped (path : String) : String := String.ofList (Slashes.rstrip '/' path.toList)

def alternatePath (path : String) : String :=
  if Asgi.endsWith path "/" then stripped path else path ++ "/"

def withQuery (path query : String) : String := if query = "" then path else path ++ "?" ++ query

def resolve (router : Router M) (state : ServerState App) (method path query : String) :
    Resolution H App :=
  match router.find method path with
  | some m => .matched m
  | none =>
      if path ≠ "/" ∧ (router.find method (alternatePath path)).isSome = true then
        .permanentRedirect (withQuery (alternatePath path) query)
      else
        let availableMethods := router.findAllMethods path
        if method = "OPTIONS" ∧ availableMethods ≠ [] then .allow availableMethods
        else
          match findMountInSlice state.asgiMounts path with
          | some m => .mount m
          | none => if method = "OPTIONS" ∧ state.globalCors = true then .preflight else .notFound

end

section

variable {H App : Type} {M : MatchRouter (Route H)} (rs : List (Registration H))
  (router : Router M) (state : ServerState App) (method path query : String)

def slashes : List Char := ['/', '/']

structure Canonical (target : String) : Prop where
  trailing : stripped target = stripped path
  matched : Matched rs method target
  followed : ∀ query', ∃ m, resolve router state method target query' = .matched m
  noAuthority : slashes <+: target.toList →
    ∀ r ∈ rs, r.method = method → r.Matches target → slashes <+: r.path.toList

structure TrailingSlashLaw : Prop where
  redirect : ∀ location, resolve router state method path query = .permanentRedirect location →
    ¬Matched rs method path ∧
      ∃ target, location = withQuery target query ∧ Canonical rs router state method path target
  complete : Matched rs method (stripped path) ∨ Matched rs method (stripped path ++ "/") →
    (∃ m, resolve router state method path query = .matched m) ∨
      ∃ location, resolve router state method path query = .permanentRedirect location

-- the root is never redirected, and of a run of slashes only the stripped path is tried
def CanonicalTried : Prop :=
  Matched rs method path ∨
    ((path = "/" → ¬Matched rs method "") ∧
      (slashes <:+ path.toList → Matched rs method (stripped path ++ "/") →
        Matched rs method (stripped path)))

end

section

variable {H : Type} {M : MatchRouter (Route H)} {rs : List (Registration H)}
  {template path rest : List Char}

theorem Fits.second_slash (h : Fits template ('/' :: rest)) :
    (∃ template', template = '/' :: template' ∧ Fits template' rest) ∨
      ∀ value, value ≠ [] → Fits template value := by
  generalize hpath : '/' :: rest = path at h
  cases h with
  | nil => cases hpath
  | @literal c template' path' _ _ h =>
    rw [List.cons.injEq] at hpath
    obtain ⟨rfl, rfl⟩ := hpath
    exact .inl ⟨template', rfl, h⟩
  | openBrace => cases hpath
  | closeBrace => cases hpath
  | @param name value _ _ _ _ _ _ hvalue hslash _ =>
    cases value with
    | nil => exact absurd rfl hvalue
    | cons d value =>
      rw [List.cons_append, List.cons.injEq] at hpath
      exact absurd (hpath.1 ▸ List.mem_cons_self) hslash
  | catchAll hname _ => exact .inr (fun value hvalue => .catchAll hname hvalue)

theorem Fits.beyond (h : Fits template ('/' :: '/' :: rest)) (htemplate : ¬slashes <+: template)
    {value : List Char} (hvalue : value ≠ []) : Fits template ('/' :: value) := by
  rcases h.second_slash with ⟨template', rfl, h'⟩ | hall
  · rcases h'.second_slash with ⟨template'', rfl, -⟩ | hall
    · exact absurd ⟨template'', rfl⟩ htemplate
    · exact .literal (by decide) (by decide) (hall value hvalue)
  · exact hall _ (List.cons_ne_nil _ _)

theorem slashes_of_convertPath {s : String} (h : slashes <+: (convertPath s).toList) :
    slashes <+: s.toList := by
  obtain ⟨more, hmore⟩ := h
  rw [convertPath, String.toList_ofList] at hmore
  have hhead : ∀ {cs t : List Char}, convertChars none cs = '/' :: t →
      ∃ cs', cs = '/' :: cs' ∧ convertChars none cs' = t := by
    intro cs t hcs
    cases cs with
    | nil => cases hcs
    | cons c cs' =>
      rw [convertChars] at hcs
      split at hcs
      · cases hcs
      · rw [List.cons.injEq] at hcs
        exact ⟨cs', by rw [hcs.1], hcs.2⟩
  obtain ⟨cs, hcs, hrest⟩ := hhead hmore.symm
  obtain ⟨cs', hcs', -⟩ := hhead hrest
  exact ⟨cs', by rw [hcs, hcs']; rfl⟩

theorem lastStatic_isSome_iff {path : String} :
    (lastStatic rs path).isSome = true ↔ ∃ r ∈ rs, r.isStatic = true ∧ path = r.path := by
  rw [lastStatic, Option.isSome_map, List.getLast?_isSome, ne_eq, List.filter_eq_nil_iff]
  simp only [Bool.and_eq_true, decide_eq_true_eq, not_forall, not_not, exists_prop,
    @eq_comm _ path]

theorem matches_static {r : Registration H} {path : String} (h : r.isStatic = true) :
    r.Matches path ↔ path = r.path := by
  rw [Registration.Matches, if_pos h]

theorem matches_dynamic {r : Registration H} {path : String} (h : r.isStatic = false) :
    r.Matches path ↔ Fits (convertPath r.path).toList path.toList := by
  rw [Registration.Matches, if_neg (by rw [h]; exact Bool.false_ne_true)]

theorem foundBy_isSome_iff (hM : TemplateMatching M) {tree : M.Tree}
    (htree : M.insertAll (dynamics rs) = .ok tree) (path : String) :
    (foundBy M rs tree path).isSome = true ↔ ∃ r ∈ rs, r.Matches path := by
  rw [foundBy]
  cases hstatic : lastStatic rs path with
  | some route =>
    obtain ⟨r, hr, hs, hpath⟩ := lastStatic_isSome_iff.mp (by rw [hstatic]; rfl)
    exact iff_of_true rfl ⟨r, hr, (matches_static hs).mpr hpath⟩
  | none =>
    have hnone : ¬∃ r ∈ rs, r.isStatic = true ∧ path = r.path := by
      rw [← lastStatic_isSome_iff, hstatic]
      exact Bool.false_ne_true
    dsimp only
    rw [Option.isSome_map]
    constructor
    · intro hsome
      obtain ⟨⟨v, params⟩, hlookup⟩ := Option.isSome_iff_exists.mp hsome
      obtain ⟨template, hmem, hfits⟩ := hM.fits _ _ _ _ _ htree hlookup
      obtain ⟨r, hr, hentry⟩ := List.mem_map.mp hmem
      rw [List.mem_filter, Bool.not_eq_true'] at hr
      obtain ⟨rfl, -⟩ := Prod.mk.inj hentry
      exact ⟨r, hr.1, (matches_dynamic hr.2).mpr hfits⟩
    · rintro ⟨r, hr, hmatches⟩
      cases hs : r.isStatic with
      | true => exact absurd ⟨r, hr, hs, (matches_static hs).mp hmatches⟩ hnone
      | false =>
        have hentry : r.entry ∈ dynamics rs :=
          List.mem_map_of_mem (List.mem_filter.mpr ⟨hr, by rw [hs]; rfl⟩)
        exact hM.found _ _ _ _ _ htree hentry ((matches_dynamic hs).mp hmatches)

theorem find_isSome_iff_matched (hM : TemplateMatching M) {router : Router M}
    (h : (Router.new M).registerAll rs = .ok router) (method path : String) :
    (router.find method path).isSome = true ↔ Matched rs method path := by
  obtain ⟨tree, htree, hfind⟩ := found_of_registerAll h method
  rw [hfind, foundBy_isSome_iff hM htree, Matched, ofMethod]
  simp only [List.mem_filter, decide_eq_true_eq, and_assoc]

end

section

variable {path target : String}

theorem stripped_append_slash (path : String) : stripped (path ++ "/") = stripped path := by
  obtain ⟨b, k, hpath, hb⟩ := Slashes.exists_body '/' path.toList
  have happend : (path ++ "/").toList = b ++ List.replicate (k + 1) '/' := by
    rw [String.toList_append, hpath, List.replicate_succ', List.append_assoc]
    rfl
  rw [stripped, stripped, happend, hpath, Slashes.rstrip_append_replicate hb,
    Slashes.rstrip_append_replicate hb]

theorem stripped_stripped (path : String) : stripped (stripped path) = stripped path := by
  rw [stripped, stripped, String.toList_ofList,
    Slashes.rstrip_eq_self (Slashes.rstrip_ended '/' path.toList)]

theorem stripped_alternatePath (path : String) :
    stripped (alternatePath path) = stripped path := by
  rw [alternatePath]
  split
  · exact stripped_stripped path
  · exact stripped_append_slash path

theorem endsWith_slash_iff : Asgi.endsWith path "/" = true ↔ path.toList.getLast? = some '/' := by
  rw [Asgi.endsWith, List.isSuffixOf_iff_suffix]
  exact List.singleton_suffix_iff_getLast?_eq_some

theorem stripped_of_not_ended (h : ¬Asgi.endsWith path "/" = true) : stripped path = path := by
  rw [endsWith_slash_iff] at h
  rw [stripped, Slashes.rstrip_eq_self h, String.ofList_toList]

theorem stripped_append_of_single (hended : Asgi.endsWith path "/" = true)
    (hrun : ¬slashes <:+ path.toList) : stripped path ++ "/" = path := by
  rw [endsWith_slash_iff] at hended
  obtain ⟨b, k, hpath, hb⟩ := Slashes.exists_body '/' path.toList
  have hk : k = 1 := by
    match k with
    | 0 =>
      rw [hpath, List.replicate_zero, List.append_nil] at hended
      exact absurd hended hb
    | 1 => rfl
    | k + 2 =>
      refine absurd ⟨b ++ List.replicate k '/', ?_⟩ hrun
      rw [hpath, List.append_assoc]
      exact congrArg (b ++ ·) (List.replicate_add k 2 '/').symm
  refine String.toList_injective ?_
  rw [String.toList_append, stripped, String.toList_ofList, hpath,
    Slashes.rstrip_append_replicate hb, hk]
  rfl

theorem led_of_alternatePath (h : slashes <+: (alternatePath path).toList) :
    ∃ value, value ≠ [] ∧ path.toList = '/' :: value := by
  obtain ⟨rest, hrest⟩ := h
  rw [alternatePath] at hrest
  by_cases hended : Asgi.endsWith path "/" = true
  · obtain ⟨b, k, hpath, hb⟩ := Slashes.exists_body '/' path.toList
    rw [if_pos hended, stripped, hpath, Slashes.rstrip_append_replicate hb,
      String.toList_ofList] at hrest
    exact ⟨'/' :: rest ++ List.replicate k '/', List.cons_ne_nil _ _, by rw [hpath, ← hrest]; rfl⟩
  · rw [if_neg hended, String.toList_append] at hrest
    rw [endsWith_slash_iff] at hended
    match hlist : path.toList with
    | [] =>
      rw [hlist] at hrest
      cases hrest
    | [c] =>
      rw [hlist] at hrest hended
      cases hrest
      exact absurd rfl hended
    | c :: d :: value =>
      rw [hlist] at hrest
      cases hrest
      exact ⟨_, List.cons_ne_nil _ _, rfl⟩

end

section

variable {H App : Type} {M : MatchRouter (Route H)} {rs : List (Registration H)}
  {router : Router M} {state : ServerState App} {method path query : String}

theorem resolve_of_missed (h : router.find method path = none) :
    resolve router state method path query =
      if path ≠ "/" ∧ (router.find method (alternatePath path)).isSome = true then
        .permanentRedirect (withQuery (alternatePath path) query)
      else
        if method = "OPTIONS" ∧ router.findAllMethods path ≠ [] then
          .allow (router.findAllMethods path)
        else
          match findMountInSlice state.asgiMounts path with
          | some m => .mount m
          | none => if method = "OPTIONS" ∧ state.globalCors = true then .preflight
              else .notFound := by
  rw [resolve, h]

theorem resolve_matched_iff (hM : TemplateMatching M)
    (h : (Router.new M).registerAll rs = .ok router) :
    (∃ m, resolve router state method path query = .matched m) ↔ Matched rs method path := by
  rw [← find_isSome_iff_matched hM h]
  cases hfind : router.find method path with
  | some m => exact iff_of_true ⟨m, by rw [resolve, hfind]⟩ rfl
  | none =>
    refine iff_of_false ?_ Bool.false_ne_true
    rintro ⟨m, hm⟩
    rw [resolve_of_missed hfind] at hm
    repeat' split at hm
    all_goals cases hm

theorem resolve_redirect_iff (hM : TemplateMatching M)
    (h : (Router.new M).registerAll rs = .ok router) {location : String} :
    resolve router state method path query = .permanentRedirect location ↔
      ¬Matched rs method path ∧ path ≠ "/" ∧ Matched rs method (alternatePath path) ∧
        location = withQuery (alternatePath path) query := by
  rw [← find_isSome_iff_matched hM h, ← find_isSome_iff_matched hM h]
  cases hfind : router.find method path with
  | some m =>
    refine iff_of_false (fun hm => ?_) (fun hm => hm.1 rfl)
    rw [resolve, hfind] at hm
    cases hm
  | none =>
    rw [resolve_of_missed hfind]
    by_cases htried : path ≠ "/" ∧ (router.find method (alternatePath path)).isSome = true
    · rw [if_pos htried, Resolution.permanentRedirect.injEq]
      exact ⟨fun hlocation => ⟨Bool.false_ne_true, htried.1, htried.2, hlocation.symm⟩,
        fun hall => hall.2.2.2.symm⟩
    · rw [if_neg htried]
      refine iff_of_false (fun hm => ?_) (fun hall => htried ⟨hall.2.1, hall.2.2.1⟩)
      repeat' split at hm
      all_goals cases hm

theorem canonical_alternatePath (hM : TemplateMatching M)
    (h : (Router.new M).registerAll rs = .ok router) (hmissed : ¬Matched rs method path)
    (hmatched : Matched rs method (alternatePath path)) :
    Canonical rs router state method path (alternatePath path) where
  trailing := stripped_alternatePath path
  matched := hmatched
  followed _ := (resolve_matched_iff hM h).mpr hmatched
  noAuthority hled r hr hmethod hmatches := by
    obtain ⟨value, hvalue, hpath⟩ := led_of_alternatePath hled
    cases hs : r.isStatic with
    | true =>
      rw [matches_static hs] at hmatches
      rwa [← hmatches]
    | false =>
      rw [matches_dynamic hs] at hmatches
      by_contra hpattern
      obtain ⟨rest, hrest⟩ := hled
      rw [← hrest] at hmatches
      have hfits := hmatches.beyond (fun hslashes => hpattern (slashes_of_convertPath hslashes))
        hvalue
      exact hmissed ⟨r, hr, hmethod, (matches_dynamic hs).mpr (hpath ▸ hfits)⟩

theorem canonicalTried_iff (hmissed : ¬Matched rs method path) :
    CanonicalTried rs method path ↔
      (Matched rs method (stripped path) ∨ Matched rs method (stripped path ++ "/") →
        path ≠ "/" ∧ Matched rs method (alternatePath path)) := by
  constructor
  · intro htried hforms
    obtain ⟨hroot, hrun⟩ := htried.resolve_left hmissed
    have hne : path ≠ "/" := by
      rintro rfl
      exact hforms.elim (hroot rfl) hmissed
    refine ⟨hne, ?_⟩
    rw [alternatePath]
    by_cases hended : Asgi.endsWith path "/" = true
    · rw [if_pos hended]
      by_cases hslashes : slashes <:+ path.toList
      · exact hforms.elim id (hrun hslashes)
      · rw [stripped_append_of_single hended hslashes] at hforms
        exact hforms.resolve_right hmissed
    · rw [if_neg hended]
      rw [stripped_of_not_ended hended] at hforms
      exact hforms.resolve_left hmissed
  · intro hforms
    refine .inr ⟨?_, fun hslashes happended => ?_⟩
    · rintro rfl hempty
      exact (hforms (.inl hempty)).1 rfl
    · have hmatched := (hforms (.inr happended)).2
      have hended : Asgi.endsWith path "/" = true := by
        obtain ⟨b, hb⟩ := hslashes
        rw [endsWith_slash_iff, ← hb]
        exact Slashes.getLast?_append_replicate (k := 2) (by decide)
      rwa [alternatePath, if_pos hended] at hmatched

end

section

variable {V : Type} {start name path : List Char}

theorem fits_parameter (hstart : '{' ∉ start ∧ '}' ∉ start) (hne : name ≠ [])
    (halpha : ∀ c ∈ name, c.isAlpha = true) :
    Fits (start ++ '{' :: (name ++ ['}'])) path ↔
      ∃ value, value ≠ [] ∧ '/' ∉ value ∧ path = start ++ value := by
  have hhead : ∀ c : Char, c.isAlpha = false → name.head? ≠ some c := by
    intro c hc hname
    rw [halpha c (List.mem_of_mem_head? hname)] at hc
    cases hc
  have hclose : '}' ∉ name := fun hm => absurd (halpha _ hm) (by decide)
  induction start generalizing path with
  | nil =>
    constructor
    · intro h
      rw [List.nil_append] at h
      generalize htemplate : '{' :: (name ++ ['}']) = template at h
      cases h with
      | nil => cases htemplate
      | literal hopen _ _ => exact absurd (List.cons.inj htemplate).1.symm hopen
      | openBrace _ =>
        obtain ⟨d, name', rfl⟩ := List.exists_cons_of_ne_nil hne
        obtain ⟨rfl, -⟩ := List.cons.inj (List.cons.inj htemplate).2
        exact absurd rfl (hhead '{' (by decide))
      | closeBrace _ => cases htemplate
      | @param name' value template path' _ _ _ hname' hvalue hslash hrest =>
        obtain ⟨-, htail⟩ := Splitting.append_cons_inj hclose hname' (List.cons.inj htemplate).2
        subst htail
        cases hrest
        exact ⟨value, hvalue, hslash, by rw [List.append_nil, List.nil_append]⟩
      | catchAll _ _ =>
        obtain ⟨d, name', rfl⟩ := List.exists_cons_of_ne_nil hne
        obtain ⟨rfl, -⟩ := List.cons.inj (List.cons.inj htemplate).2
        exact absurd rfl (hhead '*' (by decide))
    · rintro ⟨value, hvalue, hslash, rfl⟩
      have hfits := Fits.param hne (hhead '*' (by decide)) (hhead '{' (by decide)) hclose hvalue
        hslash .nil
      rwa [List.append_nil] at hfits
  | cons c start ih =>
    rw [List.mem_cons, List.mem_cons, not_or, not_or] at hstart
    have hih := fun path => @ih path ⟨hstart.1.2, hstart.2.2⟩
    constructor
    · intro h
      rw [List.cons_append] at h
      generalize htemplate : c :: (start ++ '{' :: (name ++ ['}'])) = template at h
      cases h with
      | nil => cases htemplate
      | literal _ _ h =>
        obtain ⟨rfl, rfl⟩ := List.cons.inj htemplate
        obtain ⟨value, hvalue, hslash, rfl⟩ := (hih _).mp h
        exact ⟨value, hvalue, hslash, rfl⟩
      | openBrace _ => exact absurd (List.cons.inj htemplate).1.symm hstart.1.1
      | closeBrace _ => exact absurd (List.cons.inj htemplate).1.symm hstart.2.1
      | param _ _ _ _ _ _ _ => exact absurd (List.cons.inj htemplate).1.symm hstart.1.1
      | catchAll _ _ => exact absurd (List.cons.inj htemplate).1.symm hstart.1.1
    · rintro ⟨value, hvalue, hslash, rfl⟩
      exact .literal (Ne.symm hstart.1.1) (Ne.symm hstart.2.1)
        ((hih _).mpr ⟨value, hvalue, hslash, rfl⟩)

-- `soleRouter` without the doubled braces that it does not read
def plainInsert (tree : Option (List Char × List Char × V)) (template : String) (v : V) :
    Except String (Option (List Char × List Char × V)) :=
  if (soleTemplate template).any (fun t => t.1.contains '}') then .error "invalid parameter"
  else soleInsert tree template v

theorem plainInsert_ok {tree tree' : Option (List Char × List Char × V)} {template : String} {v : V}
    (h : plainInsert tree template v = .ok tree') :
    soleInsert tree template v = .ok tree' ∧
      ∀ t, soleTemplate template = some t → '}' ∉ t.1 := by
  rw [plainInsert] at h
  split at h
  · cases h
  next hplain =>
    refine ⟨h, fun t ht hmem => hplain ?_⟩
    rw [ht, Option.any_some, List.contains_iff_mem]
    exact hmem

theorem plainInsert_foldlM {entries : List (String × V)}
    {tree tree' : Option (List Char × List Char × V)}
    (h : entries.foldlM (fun t e => plainInsert t e.1 e.2) tree = .ok tree') :
    entries.foldlM (fun t e => soleInsert t e.1 e.2) tree = .ok tree' ∧
      ∀ e ∈ entries, ∀ t, soleTemplate e.1 = some t → '}' ∉ t.1 := by
  induction entries generalizing tree with
  | nil => exact ⟨h, fun e he => absurd he List.not_mem_nil⟩
  | cons e entries ih =>
    rw [List.foldlM_cons] at h ⊢
    cases hfirst : plainInsert tree e.1 e.2 with
    | error x =>
      rw [hfirst] at h
      cases h
    | ok next =>
      rw [hfirst] at h
      obtain ⟨hsole, hplain⟩ := plainInsert_ok hfirst
      obtain ⟨hrest, hall⟩ := ih h
      rw [hsole]
      exact ⟨hrest, List.forall_mem_cons.mpr ⟨hplain, hall⟩⟩

theorem plainRouter_new {V : Type} (path : String) :
    soleLookup (none : Option (List Char × List Char × V)) path = none := rfl

def plainRouter (V : Type) : MatchRouter V where
  Tree := Option (List Char × List Char × V)
  new := none
  insert := plainInsert
  lookup := soleLookup
  lookup_new := plainRouter_new
  lookup_mem entries tree path v params hinsert hlookup :=
    (soleRouter V).lookup_mem entries tree path v params (plainInsert_foldlM hinsert).1 hlookup

theorem soleLookup_isSome_iff {v : V} {path : String} :
    (soleLookup (some (start, name, v)) path).isSome = true ↔
      ∃ value, value ≠ [] ∧ '/' ∉ value ∧ path.toList = start ++ value := by
  rw [soleLookup]
  constructor
  · intro h
    split at h
    next hfound =>
      rw [Bool.and_eq_true, Bool.and_eq_true, Bool.not_eq_true', bne_iff_ne,
        List.isPrefixOf_iff_prefix] at hfound
      obtain ⟨⟨⟨value, hvalue⟩, hlength⟩, hslash⟩ := hfound
      rw [← hvalue, List.drop_left] at hslash
      refine ⟨value, ?_, by simpa using hslash, hvalue.symm⟩
      rintro rfl
      rw [← hvalue, List.append_nil] at hlength
      exact hlength rfl
    · cases h
  · rintro ⟨value, hvalue, hslash, hpath⟩
    rw [hpath, List.drop_left, if_pos]
    · rfl
    · rw [Bool.and_eq_true, Bool.and_eq_true, Bool.not_eq_true', bne_iff_ne,
        List.isPrefixOf_iff_prefix]
      refine ⟨⟨List.prefix_append _ _, ?_⟩, by simpa using hslash⟩
      rw [List.length_append]
      have hpos := List.length_pos_of_ne_nil hvalue
      omega

theorem plainRouter_matching {H : Type} : TemplateMatching (plainRouter (Route H)) := by
  have hlookup : ∀ {entries tree path}, (plainRouter (Route H)).insertAll entries = .ok tree →
      entries = [] ∧ tree = none ∨ ∃ template v, entries = [(template, v)] ∧
        ((soleLookup tree path).isSome = true ↔ Fits template.toList path.toList) := by
    intro entries tree path hinsert
    obtain ⟨hsole, hplain⟩ := plainInsert_foldlM hinsert
    rcases soleInsert_foldlM hsole with hnone | ⟨template, start, name, v, rfl, htemplate, rfl⟩
    · exact .inl hnone
    · obtain ⟨hlist, hopen, hne, -, halpha⟩ := soleTemplate_some htemplate
      have hclose := hplain _ List.mem_cons_self _ htemplate
      refine .inr ⟨template, v, rfl, ?_⟩
      rw [hlist, fits_parameter ⟨hopen, hclose⟩ hne halpha, soleLookup_isSome_iff]
  refine ⟨fun entries tree path v params hinsert hfound => ?_,
    fun entries tree template v path hinsert hmem hfits => ?_⟩
  · have hmem := (plainRouter (Route H)).lookup_mem entries tree path v params hinsert hfound
    rcases @hlookup _ _ path hinsert with ⟨rfl, -⟩ | ⟨template, w, rfl, hiff⟩
    · cases hmem
    · rw [List.map_singleton, List.mem_singleton] at hmem
      subst hmem
      exact ⟨template, List.mem_cons_self, hiff.mp (Option.isSome_of_eq_some hfound)⟩
  · rcases @hlookup _ _ path hinsert with ⟨rfl, -⟩ | ⟨template', w, rfl, hiff⟩
    · cases hmem
    · obtain ⟨rfl, rfl⟩ := Prod.mk.inj (List.mem_singleton.mp hmem)
      exact hiff.mpr hfits

end

def plainState : ServerState Unit := ⟨[], false⟩

def userPaths : List (Registration Unit) :=
  [⟨"GET", "/users/{id}", 0, ()⟩, ⟨"POST", "/users/", 1, ()⟩]

-- the root route of an API mounted at `/`, with trailing slashes stripped
def rootMount : List (Registration Unit) :=
  [⟨"GET", Dispatch.normalizePath (Dispatch.mountPath "/" ++ "/") .strip, 0, ()⟩]

end DjangoBolt.Routing
