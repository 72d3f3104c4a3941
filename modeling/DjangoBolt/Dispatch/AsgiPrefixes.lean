import DjangoBolt.Dispatch.MountPathLaw

open Python

namespace DjangoBolt.Dispatch

open Slashes

section

variable {Asgi : Type} {x y : List Char} {path : String}

def asgiPrefix (x : List Char) : String := String.ofList ('/' :: x)

def Static (l : List Char) : Prop := '{' ∉ l ∧ '}' ∉ l

instance (l : List Char) : Decidable (Static l) := inferInstanceAs (Decidable (_ ∧ _))

theorem toList_asgiPrefix (x : List Char) : (asgiPrefix x).toList = '/' :: x :=
  String.toList_ofList

theorem asgiPrefix_injective : Function.Injective asgiPrefix := by
  intro x y h
  have hlist := congrArg String.toList h
  rw [toList_asgiPrefix, toList_asgiPrefix] at hlist
  exact List.cons_injective hlist

theorem static_cons : Static ('/' :: x) ↔ Static x := by
  simp [Static]

theorem static_join : Static (join '/' x y) ↔ Static x ∧ Static y := by
  simp only [Static, mem_join_iff (c := '/') (d := '{') (by decide),
    mem_join_iff (c := '/') (d := '}') (by decide)]
  tauto

theorem toList_stripSlash (s : String) : (stripSlash s).toList = strip '/' s.toList := by
  rw [stripSlash, rstripSlash, lstripSlash, String.toList_ofList, String.toList_ofList]
  rfl

theorem normalizeMountPrefix_eq (path : String) :
    normalizeMountPrefix path =
      if Static (strip '/' path.toList) then .ok (asgiPrefix (strip '/' path.toList))
      else .error (.dynamicPath (asgiPrefix (strip '/' path.toList))) := by
  have hfirst : (if path = "" then "/" else "/" ++ stripSlash path) =
      asgiPrefix (strip '/' path.toList) := by
    rw [← String.toList_inj, toList_asgiPrefix]
    split
    · rename_i hempty
      rw [hempty]
      rfl
    · rw [String.toList_append, toList_stripSlash]
      rfl
  have hsecond : (if asgiPrefix (strip '/' path.toList) ≠ "/" ∧
      (asgiPrefix (strip '/' path.toList)).toList.getLast? = some '/' then
        rstripSlash (asgiPrefix (strip '/' path.toList))
      else asgiPrefix (strip '/' path.toList)) = asgiPrefix (strip '/' path.toList) := by
    refine if_neg (fun h => ?_)
    rw [toList_asgiPrefix] at h
    refine (base_cons (strip_head '/' path.toList) (strip_ended '/' _)).ended (fun hroot => ?_) h.2
    refine h.1 (String.toList_inj.mp ?_)
    rw [toList_asgiPrefix, hroot]
    rfl
  rw [normalizeMountPrefix]
  simp only [hfirst, hsecond]
  simp only [toList_asgiPrefix]
  by_cases hstatic : Static (strip '/' path.toList)
  · rw [if_pos hstatic, if_neg (not_or.mpr (static_cons.mpr hstatic))]
  · rw [if_neg hstatic, if_pos]
    rw [← static_cons, Static, not_and_or, not_not, not_not] at hstatic
    exact hstatic

end

section

variable {Asgi : Type} {x : List Char} {base path : String} {mounts : List (String × Asgi)}

-- what an application stores: a bare text without braces behind one slash
structure Kept (x : List Char) : Prop where
  bare : Bare '/' x
  static : Static x

theorem kept_strip {l : List Char} (hl : Static (strip '/' l)) : Kept (strip '/' l) :=
  ⟨bare_strip '/' l, hl⟩

theorem strip_mountPath (path : String) :
    strip '/' (mountPath path).toList = strip '/' path.toList := by
  rw [toList_mountPath]
  split
  · rename_i h
    rw [h]
    rfl
  · rw [strip_cons_self, (bare_strip '/' path.toList).strip_eq]

theorem asgiPrefix_eq_root_iff : asgiPrefix x = "/" ↔ x = [] := by
  have hroot : "/".toList = ['/'] := rfl
  rw [← String.toList_inj, toList_asgiPrefix, hroot, List.cons_inj_right]

theorem base_ended (path : String) :
    (mountPath path).toList = ['/'] ∨ (mountPath path).toList.getLast? ≠ some '/' :=
  or_iff_not_imp_left.mpr (base_mountPath path).ended

theorem newAsgiPrefix_eq (hbase : base.toList = ['/'] ∨ base.toList.getLast? ≠ some '/')
    (hx : Kept x) :
    AsgiApi.newAsgiPrefix base (asgiPrefix x) =
      if Static (strip '/' base.toList) then
        .ok (asgiPrefix (join '/' (strip '/' base.toList) x))
      else .error (.dynamicPath (asgiPrefix (join '/' (strip '/' base.toList) x))) := by
  have hjoin : Static (join '/' (strip '/' base.toList) x) ↔ Static (strip '/' base.toList) := by
    rw [static_join, and_iff_left hx.static]
  rw [AsgiApi.newAsgiPrefix]
  by_cases hempty : base = ""
  · rw [if_pos hempty, hempty]
    rfl
  rw [if_neg hempty]
  by_cases hroot : x = []
  · rw [if_pos (asgiPrefix_eq_root_iff.mpr hroot), normalizeMountPrefix_eq, hroot, join_nil_right]
  · have hstrip : strip '/' (base ++ asgiPrefix x).toList = join '/' (strip '/' base.toList) x := by
      rw [String.toList_append, toList_asgiPrefix]
      rcases hbase with hbase | hbase
      · have hnil : strip '/' ['/'] = [] := rfl
        rw [hbase, hnil, join_nil_left, List.singleton_append, strip_cons_self, strip_cons_self,
          hx.bare.strip_eq]
      · have hne : base.toList ≠ [] := fun h => hempty (String.toList_inj.mp h)
        exact strip_append_cons hbase hne hx.bare
    rw [if_neg (fun h => hroot (asgiPrefix_eq_root_iff.mp h)), normalizeMountPrefix_eq, hstrip]
    simp only [hjoin]

theorem Kept.join {y : List Char} (hx : Kept x) (hy : Kept y) : Kept (join '/' x y) :=
  ⟨hx.bare.join hy.bare, static_join.mpr ⟨hx.static, hy.static⟩⟩

def asgiUnder (path mounted : String) : String :=
  asgiPrefix (join '/' (strip '/' path.toList) (strip '/' mounted.toList))

-- the mounts of an application: kept prefixes, no two the same
structure KeptMounts (mounts : List (String × Asgi)) : Prop where
  kept : ∀ e ∈ mounts, ∃ x, Kept x ∧ e.1 = asgiPrefix x
  nodup : (mounts.map Prod.fst).Nodup

theorem strip_asgiPrefix (hx : Kept x) : strip '/' (asgiPrefix x).toList = x := by
  rw [toList_asgiPrefix, strip_cons_self, hx.bare.strip_eq]

theorem asgiUnder_asgiPrefix (path : String) (hx : Kept x) :
    asgiUnder path (asgiPrefix x) = asgiPrefix (join '/' (strip '/' path.toList) x) := by
  rw [asgiUnder, strip_asgiPrefix hx]

theorem mountAll_static {rest mounts : List (String × Asgi)}
    (hpath : Static (strip '/' path.toList))
    (hrest : ∀ e ∈ rest, ∃ x, Kept x ∧ e.1 = asgiPrefix x)
    (hnodup : (mounts.map Prod.fst ++ rest.map (fun e => asgiUnder path e.1)).Nodup) :
    AsgiApi.mountAll (mountPath path) rest mounts =
      .ok (mounts ++ rest.map (fun e => (asgiUnder path e.1, e.2))) := by
  induction rest generalizing mounts with
  | nil => rw [AsgiApi.mountAll, List.map_nil, List.append_nil]
  | cons e rest ih =>
    obtain ⟨pre, y⟩ := e
    obtain ⟨x, hx, rfl⟩ := hrest (pre, y) List.mem_cons_self
    have hnew : asgiUnder path (asgiPrefix x) ∉ mounts.map Prod.fst := fun hmem =>
      List.disjoint_of_nodup_append hnodup hmem List.mem_cons_self
    rw [AsgiApi.mountAll, newAsgiPrefix_eq (base_ended path) hx, strip_mountPath, if_pos hpath,
      ← asgiUnder_asgiPrefix path hx]
    have hadd : AsgiApi.addMount mounts (asgiUnder path (asgiPrefix x)) y =
        .ok (mounts ++ [(asgiUnder path (asgiPrefix x), y)]) := by
      rw [AsgiApi.addMount, if_neg hnew]
    have hrest' := fun e he => hrest e (List.mem_cons_of_mem _ he)
    have hnodup' : ((mounts ++ [(asgiUnder path (asgiPrefix x), y)]).map Prod.fst ++
        rest.map (fun e => asgiUnder path e.1)).Nodup := by
      simpa using hnodup
    simp only [bind, Except.bind, hadd, ih hrest' hnodup']
    simp

theorem mountAll_dynamic {e : String × Asgi} {rest mounts : List (String × Asgi)}
    (hpath : ¬Static (strip '/' path.toList)) (he : ∃ x, Kept x ∧ e.1 = asgiPrefix x) :
    (AsgiApi.mountAll (mountPath path) (e :: rest) mounts).toOption = none := by
  obtain ⟨pre, y⟩ := e
  obtain ⟨x, hx, rfl⟩ := he
  rw [AsgiApi.mountAll, newAsgiPrefix_eq (base_ended path) hx, strip_mountPath, if_neg hpath]
  rfl

theorem KeptMounts.nodup_under (h : KeptMounts mounts) (path : String) :
    (mounts.map (fun e => asgiUnder path e.1)).Nodup := by
  have hmap := h.nodup.map_on (f := asgiUnder path) (fun s hs t ht heq => by
    obtain ⟨e, he, rfl⟩ := List.mem_map.mp hs
    obtain ⟨e', he', rfl⟩ := List.mem_map.mp ht
    obtain ⟨x, hx, hex⟩ := h.kept e he
    obtain ⟨x', hx', hex'⟩ := h.kept e' he'
    rw [hex, hex', asgiUnder_asgiPrefix path hx, asgiUnder_asgiPrefix path hx'] at heq
    rw [hex, hex', join_injective '/' _ (asgiPrefix_injective heq)])
  rwa [List.map_map] at hmap

theorem mountAll_eq (h : KeptMounts mounts) (path : String) :
    (AsgiApi.mountAll (mountPath path) mounts []).toOption =
      if mounts = [] ∨ Static (strip '/' path.toList) then
        some (mounts.map (fun e => (asgiUnder path e.1, e.2)))
      else none := by
  by_cases hpath : Static (strip '/' path.toList)
  · have hnodup := h.nodup_under path
    rw [if_pos (.inr hpath), mountAll_static hpath h.kept (by simpa using hnodup)]
    rfl
  · cases mounts with
    | nil => rfl
    | cons e rest =>
      rw [if_neg (by simp [hpath]), mountAll_dynamic hpath (h.kept e List.mem_cons_self)]

theorem KeptMounts.nil : KeptMounts ([] : List (String × Asgi)) where
  kept _ h := absurd h List.not_mem_nil
  nodup := List.nodup_nil

theorem KeptMounts.append_singleton (h : KeptMounts mounts) {mounted : String}
    (hnew : mounted ∉ mounts.map Prod.fst) (hx : Kept x) (hmounted : mounted = asgiPrefix x)
    (y : Asgi) : KeptMounts (mounts ++ [(mounted, y)]) where
  kept e he := by
    rcases List.mem_append.mp he with he | he
    · exact h.kept e he
    · exact ⟨x, hx, by rw [List.mem_singleton.mp he, hmounted]⟩
  nodup := by
    rw [List.map_append]
    exact List.Nodup.append h.nodup (List.nodup_singleton _) (by simpa using hnew)

theorem KeptMounts.under (h : KeptMounts mounts)
    (hpath : mounts = [] ∨ Static (strip '/' path.toList)) :
    KeptMounts (mounts.map (fun e => (asgiUnder path e.1, e.2))) := by
  rcases hpath with rfl | hpath
  · exact .nil
  refine ⟨fun e' he' => ?_, ?_⟩
  · obtain ⟨e, he, rfl⟩ := List.mem_map.mp he'
    obtain ⟨x, hx, hex⟩ := h.kept e he
    refine ⟨_, (kept_strip hpath).join hx, ?_⟩
    rw [hex, asgiUnder_asgiPrefix path hx]
  · have hmap := h.nodup_under path
    rwa [List.map_map]

end

section

variable {Asgi : Type} {api api' : AsgiApi Asgi} {path : String} {y : Asgi}

theorem mountAsgi_ok (hbase : api.app.config.basePath.toList.getLast? ≠ some '/')
    (h : api.mountAsgi path y = .ok api') :
    Kept (join '/' (strip '/' api.app.config.basePath.toList) (strip '/' path.toList)) ∧
      asgiUnder api.app.config.basePath path ∉ api.asgiMounts.map Prod.fst ∧
      api' = { api with
        asgiMounts := api.asgiMounts ++ [(asgiUnder api.app.config.basePath path, y)] } := by
  rw [AsgiApi.mountAsgi, normalizeMountPrefix_eq] at h
  by_cases hpath : Static (strip '/' path.toList)
  swap
  · rw [if_neg hpath] at h
    cases h
  rw [if_pos hpath] at h
  simp only [bind, Except.bind, newAsgiPrefix_eq (.inr hbase) (kept_strip hpath)] at h
  by_cases hprefix : Static (strip '/' api.app.config.basePath.toList)
  swap
  · rw [if_neg hprefix] at h
    cases h
  rw [if_pos hprefix] at h
  refine ⟨(kept_strip hprefix).join (kept_strip hpath), ?_⟩
  simp only [AsgiApi.addMount] at h
  split at h
  · cases h
  · rename_i mounts hadd
    split at hadd
    · cases hadd
    · rename_i hnew
      cases hadd
      cases h
      exact ⟨hnew, rfl⟩

end

end DjangoBolt.Dispatch
