import DjangoBolt.Binding.Multipart

open Python

namespace DjangoBolt.Binding

variable {c : FileFieldConstraints}

structure FileParam where
  name : String
  aliasName : Option String
  param : Option FileFieldConstraints
  deriving DecidableEq

namespace FileParam

def wireName (p : FileParam) : String := orName p.aliasName p.name

def constraints (p : FileParam) : Option FileFieldConstraints :=
  p.param.filter fun c =>
    c.maxSize.isSome || c.minSize.isSome || c.allowedTypes.isSome || c.maxFiles.isSome

end FileParam

structure FileRoute where
  params : List FileParam
  nodup : (params.map FileParam.name).Nodup

namespace FileRoute

def constraintEntries (route : FileRoute) : List (String × FileFieldConstraints) :=
  route.params.filterMap (fun p => p.constraints.map (fun c => (p.name, c)))

def fileConstraints (route : FileRoute) : Dict String FileFieldConstraints :=
  Dict.ofList route.constraintEntries

-- `if c.get("max_size")`: a declared 0 does not count
def maxSizes (route : FileRoute) : List Nat :=
  route.fileConstraints.entries.filterMap (fun e => e.2.maxSize.filter (fun m => m != 0))

def maxUploadSize (route : FileRoute) (boltMaxUploadSize : Nat) : Nat :=
  (route.maxSizes.max?).getD boltMaxUploadSize

end FileRoute

namespace FileContent

def bytes : FileContent → Bytes
  | memory b => b
  | disk b => b

end FileContent

section

variable {contentType pattern : String} {cs : List Char}

def mediaType (s : String) : String :=
  lower (String.ofList (s.toList.takeWhile (fun c => c != ';')))

def mediaAllowed (contentType : String) (allowedTypes : List String) : Bool :=
  isContentTypeAllowed (mediaType contentType) (allowedTypes.map mediaType)

theorem matchesType_self (s : String) : matchesType s s = true := by
  unfold matchesType
  split
  · rfl
  · split
    · exact List.isPrefixOf_iff_prefix.mpr (List.dropLast_prefix s.toList)
    · exact beq_self_eq_true s

theorem matchesType_wild {major : List Char} (hp : pattern.toList = major ++ ['/', '*'])
    (hc : (major ++ ['/']) <+: contentType.toList) : matchesType contentType pattern = true := by
  unfold matchesType
  split
  · rfl
  · have hsuffix : ['/', '*'].isSuffixOf pattern.toList = true := by
      rw [List.isSuffixOf_iff_suffix, hp]
      exact List.suffix_append major _
    have hdrop : pattern.toList.dropLast = major ++ ['/'] := by
      rw [hp, show ['/', '*'] = ['/'] ++ ['*'] from rfl, ← List.append_assoc,
        List.dropLast_concat]
    rw [if_pos hsuffix, hdrop]
    exact List.isPrefixOf_iff_prefix.mpr hc

theorem matchesType_iff (contentType pattern : String) :
    matchesType contentType pattern = true ↔
      pattern = "*" ∨ pattern = contentType ∨
        ∃ major, pattern.toList = major ++ ['/', '*'] ∧
          (major = ['*'] ∨ (major ++ ['/']) <+: contentType.toList) := by
  constructor
  · intro h
    unfold matchesType at h
    split at h
    · rename_i hany
      rcases (by simpa using hany : pattern = "*" ∨ pattern = "*/*") with rfl | rfl
      · exact Or.inl rfl
      · exact Or.inr (Or.inr ⟨['*'], rfl, Or.inl rfl⟩)
    · split at h
      · rename_i hsuffix
        obtain ⟨major, hmajor⟩ := List.isSuffixOf_iff_suffix.mp hsuffix
        rw [← hmajor, show ['/', '*'] = ['/'] ++ ['*'] from rfl, ← List.append_assoc,
          List.dropLast_concat] at h
        exact Or.inr (Or.inr ⟨major, hmajor.symm, Or.inr (List.isPrefixOf_iff_prefix.mp h)⟩)
      · exact Or.inr (Or.inl (by simpa using h))
  · rintro (rfl | rfl | ⟨major, hp, rfl | hc⟩)
    · rfl
    · exact matchesType_self pattern
    · have hpat : pattern = "*/*" := String.toList_inj.mp hp
      rw [hpat]
      rfl
    · exact matchesType_wild hp hc

theorem toList_mediaType (s : String) :
    (mediaType s).toList = (s.toList.takeWhile (fun c => c != ';')).map Char.toLower := by
  rw [mediaType, lower, mapChars, String.toList_ofList, String.toList_ofList]

theorem takeWhile_stop (hs : ';' ∈ cs) (ds : List Char) :
    (cs ++ ds).takeWhile (fun c => c != ';') = cs.takeWhile (fun c => c != ';') := by
  rw [List.takeWhile_append]
  refine if_neg fun hlen => ?_
  have hall := (List.takeWhile_prefix (fun c => c != ';')).eq_of_length hlen
  have hmem : ';' ∈ cs.takeWhile (fun c => c != ';') := by
    rw [hall]
    exact hs
  have hstop := List.mem_takeWhile_imp hmem
  simp at hstop

theorem mediaType_congr {s t : String} (hs : ';' ∈ cs) (h : cs <+: s.toList) (g : cs <+: t.toList) :
    mediaType s = mediaType t := by
  obtain ⟨ds, hds⟩ := h
  obtain ⟨es, hes⟩ := g
  apply String.toList_inj.mp
  rw [toList_mediaType, toList_mediaType, ← hds, ← hes, takeWhile_stop hs, takeWhile_stop hs]

theorem takeWhile_all (hs : ';' ∉ cs) (ds : List Char) :
    (cs ++ ds).takeWhile (fun c => c != ';') = cs ++ ds.takeWhile (fun c => c != ';') := by
  apply List.takeWhile_append_of_pos
  intro c hc
  simpa using fun heq : c = ';' => hs (heq ▸ hc)

theorem matchesType_mediaType (h : matchesType contentType pattern = true) :
    matchesType (mediaType contentType) (mediaType pattern) = true := by
  rcases (matchesType_iff contentType pattern).mp h with rfl | rfl | ⟨major, hp, hmajor⟩
  · rfl
  · exact matchesType_self _
  · by_cases hs : ';' ∈ major
    · rcases hmajor with rfl | hc
      · simp at hs
      · have hprefix : major <+: contentType.toList := (List.prefix_append major _).trans hc
        rw [mediaType_congr hs hprefix (hp ▸ List.prefix_append major _)]
        exact matchesType_self _
    · have hpat : (mediaType pattern).toList = major.map Char.toLower ++ ['/', '*'] := by
        rw [toList_mediaType, hp, takeWhile_all hs, List.map_append]
        rfl
      rcases hmajor with rfl | ⟨rest, hrest⟩
      · have hany : mediaType pattern = "*/*" := String.toList_inj.mp hpat
        rw [hany]
        rfl
      · apply matchesType_wild hpat
        refine ⟨(rest.takeWhile (fun c => c != ';')).map Char.toLower, ?_⟩
        rw [toList_mediaType, ← hrest, List.append_assoc major, takeWhile_all hs, List.map_append,
          List.append_assoc]
        rfl

theorem mediaAllowed_of_allowed {contentType : String} {allowedTypes : List String}
    (h : isContentTypeAllowed contentType allowedTypes = true) :
    mediaAllowed contentType allowedTypes = true := by
  obtain ⟨pattern, hpattern, hmatch⟩ := List.any_eq_true.mp h
  exact List.any_eq_true.mpr
    ⟨mediaType pattern, List.mem_map_of_mem hpattern, matchesType_mediaType hmatch⟩

end

structure Admits (allowed : String → List String → Bool) (c : FileFieldConstraints)
    (file : FileInfo) : Prop where
  maxSize : ∀ m, c.maxSize = some m → file.size ≤ m
  minSize : ∀ m, c.minSize = some m → m ≤ file.size
  types : ∀ ts, c.allowedTypes = some ts → allowed file.contentType ts = true

theorem Admits.media {file : FileInfo} (h : Admits isContentTypeAllowed c file) :
    Admits mediaAllowed c file :=
  ⟨h.maxSize, h.minSize, fun ts hts => mediaAllowed_of_allowed (h.types ts hts)⟩

theorem validateFile_ok_iff {file : FileInfo} {fieldName : String} :
    validateFile file fieldName c = .ok () ↔ Admits isContentTypeAllowed c file := by
  have hmax : checkMaxSize file fieldName c.maxSize = .ok () ↔
      ∀ m, c.maxSize = some m → file.size ≤ m := by
    cases c.maxSize with
    | none => simp [checkMaxSize]
    | some m =>
      rw [checkMaxSize]
      split <;> simp <;> omega
  have hmin : checkMinSize file fieldName c.minSize = .ok () ↔
      ∀ m, c.minSize = some m → m ≤ file.size := by
    cases c.minSize with
    | none => simp [checkMinSize]
    | some m =>
      rw [checkMinSize]
      split <;> simp <;> omega
  have htypes : checkTypes file fieldName c.allowedTypes = .ok () ↔
      ∀ ts, c.allowedTypes = some ts → isContentTypeAllowed file.contentType ts = true := by
    cases c.allowedTypes with
    | none => simp [checkTypes]
    | some ts =>
      rw [checkTypes]
      split <;> simp_all
  unfold validateFile
  cases h1 : checkMaxSize file fieldName c.maxSize with
  | error e =>
    rw [h1] at hmax
    exact iff_of_false (by simp) (fun h => by simpa using hmax.mpr h.maxSize)
  | ok u =>
    rw [h1] at hmax
    cases h2 : checkMinSize file fieldName c.minSize with
    | error e =>
      rw [h2] at hmin
      exact iff_of_false (by simp) (fun h => by simpa using hmin.mpr h.minSize)
    | ok w =>
      rw [h2] at hmin
      simp only [htypes]
      exact ⟨fun h => ⟨hmax.mp rfl, hmin.mp rfl, h⟩, fun h => h.types⟩

section

variable {L : ScalarLibrary} {reason : TypeHint → String → String} {tmp : TempFiles}
  {limits : FormLimits} {types : Dict String TypeHint}
  {constraints : Dict String FileFieldConstraints} {fieldName : String}
  {chunks : List (Except String Bytes)} {r r' : Reading}

-- the bytes that were read are kept, in memory or in the temporary file
structure Reading.Sound (r : Reading) (limits : FormLimits) (read : Bytes) : Prop where
  size : r.size = read.length
  within : r.size ≤ limits.maxUploadSize
  buffered : r.temp = none → r.buffer = read
  spooled : ∀ written, r.temp = some written → written = read

theorem writeTemp_ok {written data w : Bytes} (h : writeTemp tmp written data = .ok w) :
    w = written ++ data := by
  unfold writeTemp at h
  split at h
  · cases h
  · cases h
    rfl

theorem spool_ok {size : Nat} {buffer data : Bytes} {r : Reading}
    (h : spool tmp size buffer data = .ok r) :
    r.size = size ∧ r.temp = some (buffer ++ data) := by
  unfold spool at h
  split at h
  · cases h
  · split at h
    · cases h
    · rename_i started hstarted
      split at h
      · cases h
      · rename_i written hwritten
        cases h
        rw [writeTemp_ok hwritten, writeTemp_ok hstarted]
        exact ⟨rfl, rfl⟩

theorem readChunk_sound {read data : Bytes} (hr : r.Sound limits read)
    (h : readChunk tmp limits fieldName r data = .ok r') : r'.Sound limits (read ++ data) := by
  have hsize : r.size + data.length = (read ++ data).length := by
    rw [hr.size, List.length_append]
  simp only [readChunk] at h
  split at h
  · cases h
  · rename_i hlimit
    split at h
    · rename_i htemp
      split at h
      · cases h
        refine ⟨hsize, by simp only; omega, fun _ => ?_, fun written hw => ?_⟩
        · rw [hr.buffered htemp]
        · cases hw
      · obtain ⟨hspooled, htemp'⟩ := spool_ok h
        refine ⟨hspooled.trans hsize, by omega, fun hnone => ?_, fun written hw => ?_⟩
        · rw [htemp'] at hnone
          cases hnone
        · rw [htemp'] at hw
          cases hw
          rw [hr.buffered htemp]
    · rename_i started htemp
      split at h
      · cases h
      · rename_i written hwritten
        cases h
        refine ⟨hsize, by simp only; omega, fun hnone => ?_, fun w hw => ?_⟩
        · cases hnone
        · cases hw
          rw [writeTemp_ok hwritten, hr.spooled started htemp]

theorem readChunks_sound {read : Bytes} (hr : r.Sound limits read)
    (h : readChunks tmp limits fieldName chunks r = .ok r') : ∃ all, r'.Sound limits all := by
  induction chunks generalizing r read with
  | nil =>
    cases h
    exact ⟨read, hr⟩
  | cons chunk chunks ih =>
    cases chunk with
    | error e => cases h
    | ok data =>
      rw [readChunks] at h
      cases hstep : readChunk tmp limits fieldName r data with
      | error e =>
        rw [hstep] at h
        cases h
      | ok r'' =>
        rw [hstep] at h
        exact ih (readChunk_sound hr hstep) h

theorem readFileContent_ok {filename contentType : String} {file : FileInfo}
    (h : readFileContent tmp limits fieldName filename contentType chunks = .ok file) :
    file.size = file.content.bytes.length ∧ file.size ≤ limits.maxUploadSize := by
  have hstart : (⟨0, [], none⟩ : Reading).Sound limits [] :=
    ⟨rfl, Nat.zero_le _, fun _ => rfl, fun _ hw => by cases hw⟩
  unfold readFileContent at h
  cases hread : readChunks tmp limits fieldName chunks ⟨0, [], none⟩ with
  | error e =>
    rw [hread] at h
    cases h
  | ok r =>
    obtain ⟨all, hall⟩ := readChunks_sound hstart hread
    rw [hread] at h
    cases h
    refine ⟨?_, hall.within⟩
    cases htemp : r.temp with
    | none => exact hall.size.trans (congrArg List.length (hall.buffered htemp).symm)
    | some written => exact hall.size.trans (congrArg List.length (hall.spooled written htemp).symm)

-- every file of the map was read within the limit and checked under the name of its part
structure Checked (limits : FormLimits) (constraints : Dict String FileFieldConstraints)
    (files : Dict String (List FileInfo)) : Prop where
  measured : ∀ k, ∀ file ∈ filesAt files k,
    file.size = file.content.bytes.length ∧ file.size ≤ limits.maxUploadSize
  admits : ∀ k c, constraints.get? k = some c → ∀ file ∈ filesAt files k,
    Admits isContentTypeAllowed c file
  count : ∀ k c n, constraints.get? k = some c → c.maxFiles = some n →
    (filesAt files k).length ≤ n

theorem filesAt_set (files : Dict String (List FileInfo)) (key k : String)
    (fs : List FileInfo) : filesAt (files.set key fs) k = if k = key then fs else filesAt files k := by
  rw [filesAt, Dict.get?_set]
  split <;> rfl

theorem Checked.file {acc acc' : FormParseResult} (hacc : Checked limits constraints acc.files)
    {filename : String} {part : Part}
    (h : parseFilePart tmp limits constraints fieldName filename part acc = .ok acc') :
    Checked limits constraints acc'.files := by
  simp only [parseFilePart] at h
  split at h
  · cases h
  · rename_i file hfile
    split at h
    · cases h
    · rename_i hcheck
      split at h
      · cases h
      · rename_i hcount
        cases h
        have hnew : ∀ k, ∀ g ∈ filesAt (acc.files.set fieldName
            (filesAt acc.files fieldName ++ [file])) k, g ∈ filesAt acc.files k ∨ k = fieldName ∧ g = file := by
          intro k g hg
          rw [filesAt_set] at hg
          split at hg
          · rename_i hk
            rcases List.mem_append.mp hg with hold | hlast
            · exact Or.inl (hk ▸ hold)
            · exact Or.inr ⟨hk, List.mem_singleton.mp hlast⟩
          · exact Or.inl hg
        refine ⟨fun k g hg => ?_, fun k c hc g hg => ?_, fun k c n hc hn => ?_⟩
        · rcases hnew k g hg with hold | ⟨-, rfl⟩
          · exact hacc.measured k g hold
          · exact readFileContent_ok hfile
        · rcases hnew k g hg with hold | ⟨rfl, rfl⟩
          · exact hacc.admits k c hc g hold
          · rw [checkFile, hc] at hcheck
            exact validateFile_ok_iff.mp hcheck
        · simp only
          rw [filesAt_set]
          split
          · rename_i hk
            subst hk
            rw [checkCount, hc, Option.bind_some, hn] at hcount
            by_contra hover
            rw [not_le] at hover
            simp only [hover, if_true] at hcount
            cases hcount
          · exact hacc.count k c n hc hn

theorem Checked.part {acc acc' : FormParseResult} (hacc : Checked limits constraints acc.files)
    {part : Part}
    (h : parsePart L reason tmp limits types constraints part acc = .ok acc') :
    Checked limits constraints acc'.files := by
  unfold parsePart at h
  split at h
  · cases h
    exact hacc
  · rename_i d hd
    simp only at h
    split at h
    · exact hacc.file h
    · have hfiles : acc'.files = acc.files := by
        unfold parseFieldPart at h
        split at h
        · cases h
        · split at h
          · cases h
          · cases h
            rfl
      rw [hfiles]
      exact hacc

theorem Checked.parts {items : List (Except String Part)} {count : Nat}
    {acc r : FormParseResult} (hacc : Checked limits constraints acc.files)
    (h : parseParts L reason tmp limits types constraints items count acc = .ok r) :
    Checked limits constraints r.files := by
  induction items generalizing count acc with
  | nil =>
    cases h
    exact hacc
  | cons item items ih =>
    cases item with
    | error e =>
      rw [parseParts] at h
      split at h <;> cases h
    | ok part =>
      rw [parseParts] at h
      split at h
      · cases h
      · split at h
        · cases h
        · rename_i acc' hpart
          exact ih (hacc.part hpart) h

theorem parseMultipart_checked {payload : List (Except String Part)} {r : FormParseResult}
    (h : parseMultipart L reason tmp limits types constraints payload = .ok r) :
    Checked limits constraints r.files := by
  have hempty : ∀ k, filesAt ∅ k = [] := fun _ => rfl
  refine Checked.parts ⟨?_, ?_, ?_⟩ h
  · intro k file hfile
    rw [hempty] at hfile
    cases hfile
  · intro k c _ file hfile
    rw [hempty] at hfile
    cases hfile
  · intro k c n _ _
    rw [hempty]
    exact Nat.zero_le n

end

namespace FileRoute

variable (route : FileRoute) (boltMaxUploadSize : Nat)

structure Server where
  library : ScalarLibrary
  reason : TypeHint → String → String
  tmp : TempFiles
  memoryLimit : Nat
  maxParts : Nat
  maxParamLength : Nat
  types : Dict String TypeHint

def limits (server : Server) : FormLimits where
  maxUploadSize := route.maxUploadSize boltMaxUploadSize
  memoryLimit := server.memoryLimit
  maxParts := server.maxParts
  maxParamLength := server.maxParamLength

def parse (server : Server) (payload : List (Except String Part)) :
    Except PartError FormParseResult :=
  parseMultipart server.library server.reason server.tmp (route.limits boltMaxUploadSize server)
    server.types route.fileConstraints payload

def bound (p : FileParam) (r : FormParseResult) : List FileInfo := filesAt r.files p.wireName

def IsFilePart (part : Part) (key : String) : Prop :=
  ∃ d, part.disposition = some d ∧ d.filename.isSome = true ∧ d.name.getD "unknown" = key

-- the constraints as the claims of the documentation have them
structure Constrained (server : Server) (payload : List (Except String Part)) : Prop where
  admits : ∀ r, route.parse boltMaxUploadSize server payload = .ok r →
    ∀ p ∈ route.params, ∀ c, p.param = some c →
      (∀ file ∈ bound p r, Admits mediaAllowed c file) ∧
        ∀ n, c.maxFiles = some n → (bound p r).length ≤ n
  sizes : ∀ r, route.parse boltMaxUploadSize server payload = .ok r → ∀ key,
    (∀ p ∈ route.params, p.wireName = key → ∀ c, p.param = some c → c.maxSize = none) →
      ∀ file ∈ filesAt r.files key, file.size ≤ boltMaxUploadSize
  test : ∀ part, .ok part ∈ payload → ∀ p ∈ route.params, IsFilePart part p.wireName →
    ∀ c ts, p.param = some c → c.allowedTypes = some ts →
      isContentTypeAllowed (part.contentType.getD "application/octet-stream") ts =
        mediaAllowed (part.contentType.getD "application/octet-stream") ts

structure Guarded (server : Server) (payload : List (Except String Part)) : Prop where
  admits : ∀ r, route.parse boltMaxUploadSize server payload = .ok r →
    ∀ p ∈ route.params, p.wireName = p.name → ∀ c, p.param = some c →
      (∀ file ∈ bound p r, Admits isContentTypeAllowed c file ∧ Admits mediaAllowed c file) ∧
        ∀ n, c.maxFiles = some n → (bound p r).length ≤ n
  sizes : (∀ p ∈ route.params, ∀ c m, p.param = some c → c.maxSize = some m →
      m ≤ boltMaxUploadSize) →
    ∀ r, route.parse boltMaxUploadSize server payload = .ok r → ∀ key,
      ∀ file ∈ filesAt r.files key,
        file.size = file.content.bytes.length ∧ file.size ≤ boltMaxUploadSize
  test : ∀ contentType ts, isContentTypeAllowed contentType ts = true ↔
    ∃ pattern ∈ ts, pattern = "*" ∨ pattern = contentType ∨
      ∃ major, pattern.toList = major ++ ['/', '*'] ∧
        (major = ['*'] ∨ (major ++ ['/']) <+: contentType.toList)

theorem constraintEntries_nodup : (route.constraintEntries.map Prod.fst).Nodup := by
  refine route.nodup.sublist (Dict.keys_filterMap_sublist (fun p e he => ?_) _)
  obtain ⟨c, -, rfl⟩ := Option.map_eq_some_iff.mp he
  rfl

theorem mem_constraintEntries {e : String × FileFieldConstraints} :
    e ∈ route.constraintEntries ↔ ∃ p ∈ route.params, p.name = e.1 ∧ p.constraints = some e.2 := by
  rw [constraintEntries, List.mem_filterMap]
  constructor
  · rintro ⟨p, hp, he⟩
    obtain ⟨c, hc, rfl⟩ := Option.map_eq_some_iff.mp he
    exact ⟨p, hp, rfl, hc⟩
  · rintro ⟨p, hp, hname, hc⟩
    exact ⟨p, hp, by rw [hc, Option.map_some, hname]⟩

theorem get?_fileConstraints {p : FileParam} (hp : p ∈ route.params) {c : FileFieldConstraints}
    (hc : p.constraints = some c) : route.fileConstraints.get? p.name = some c := by
  have hmem : (p.name, c) ∈ route.constraintEntries :=
    route.mem_constraintEntries.mpr ⟨p, hp, rfl, hc⟩
  rw [fileConstraints, Dict.ofList, Dict.get?_setAll _ _ route.constraintEntries_nodup,
    (Dict.lookup_eq_some_iff _ route.constraintEntries_nodup _ _).mpr hmem]
  rfl

theorem maxUploadSize_le (h : ∀ p ∈ route.params, ∀ c m, p.param = some c → c.maxSize = some m →
    m ≤ boltMaxUploadSize) : route.maxUploadSize boltMaxUploadSize ≤ boltMaxUploadSize := by
  rw [maxUploadSize]
  cases hmax : route.maxSizes.max? with
  | none => exact Nat.le_refl _
  | some m =>
    obtain ⟨e, he, hm⟩ := List.mem_filterMap.mp (List.max?_mem hmax)
    obtain ⟨p, hp, -, hc⟩ := route.mem_constraintEntries.mp (Dict.mem_ofList he)
    exact h p hp e.2 m (Option.filter_eq_some_iff.mp hc).1 (Option.filter_eq_some_iff.mp hm).1

theorem guarded (server : Server) (payload : List (Except String Part)) :
    route.Guarded boltMaxUploadSize server payload where
  admits := by
    intro r hr p hp hwire c hc
    have hchecked := parseMultipart_checked hr
    rw [bound, hwire]
    cases hdeclared : p.constraints with
    | some d =>
      obtain rfl : c = d := by
        rw [FileParam.constraints, Option.filter_eq_some_iff, hc] at hdeclared
        exact Option.some.inj hdeclared.1
      have hget := route.get?_fileConstraints hp hdeclared
      refine ⟨fun file hfile => ?_, fun n hn => hchecked.count p.name c n hget hn⟩
      have hadmits := hchecked.admits p.name c hget file hfile
      exact ⟨hadmits, hadmits.media⟩
    | none =>
      -- no constraint is declared, and none is compiled
      rw [FileParam.constraints, hc] at hdeclared
      obtain ⟨⟨⟨hmax, hmin⟩, htypes⟩, hcount⟩ :
          ((c.maxSize = none ∧ c.minSize = none) ∧ c.allowedTypes = none) ∧ c.maxFiles = none := by
        simpa [Option.filter] using hdeclared
      have hadmits : ∀ file, Admits isContentTypeAllowed c file := by
        intro file
        refine ⟨fun m hm => ?_, fun m hm => ?_, fun ts hts => ?_⟩
        · rw [hmax] at hm
          cases hm
        · rw [hmin] at hm
          cases hm
        · rw [htypes] at hts
          cases hts
      refine ⟨fun file _ => ⟨hadmits file, (hadmits file).media⟩, fun n hn => ?_⟩
      rw [hcount] at hn
      cases hn
  sizes := by
    intro h r hr key file hfile
    obtain ⟨hsize, hle⟩ := (parseMultipart_checked hr).measured key file hfile
    exact ⟨hsize, hle.trans (route.maxUploadSize_le boltMaxUploadSize h)⟩
  test := by
    intro contentType ts
    rw [isContentTypeAllowed, List.any_eq_true]
    simp only [matchesType_iff]

-- `avatar: UploadFile = File(allowed_types=["image/png"])`
def avatarRoute : FileRoute where
  params := [⟨"avatar", none, some ⟨none, none, some ["image/png"], none⟩⟩]
  nodup := by decide

def plainServer : Server where
  library := ⟨fun _ => none, fun _ _ => none, fun _ _ => none⟩
  reason := fun _ _ => ""
  tmp := ⟨none, fun _ => none⟩
  memoryLimit := 1048576
  maxParts := 100
  maxParamLength := 8192
  types := ∅

def binaryPng : Part where
  disposition := some ⟨some "avatar", some "a.png"⟩
  contentType := some "image/png; charset=binary"
  chunks := [.ok [137, 80, 78, 71]]

-- `photo: UploadFile = File(alias="image", min_size=5)`
def aliasedRoute : FileRoute where
  params := [⟨"photo", some "image", some ⟨none, some 5, none, none⟩⟩]
  nodup := by decide

-- `scan: UploadFile = File(max_size=8), note: UploadFile = File()`
def scanRoute : FileRoute where
  params := [⟨"scan", none, some ⟨some 8, none, none, none⟩⟩,
    ⟨"note", none, some ⟨none, none, none, none⟩⟩]
  nodup := by decide

def filePart (name : String) (bytes : Bytes) : Part where
  disposition := some ⟨some name, some "a.bin"⟩
  contentType := none
  chunks := [.ok bytes]

def parsedPart (name : String) (bytes : Bytes) : FormParseResult where
  form := ∅
  files := Dict.ofList [(name, [⟨"a.bin", .memory bytes, "application/octet-stream", bytes.length⟩])]

theorem avatarRoute_not_constrained :
    ¬avatarRoute.Constrained 1048576 plainServer [.ok binaryPng] ∧
      ¬aliasedRoute.Constrained 4 plainServer [.ok (filePart "image" [1, 2, 3])] ∧
      ¬scanRoute.Constrained 4 plainServer [.ok (filePart "note" [1, 2, 3, 4, 5])] := by
  refine ⟨fun h => ?_, fun h => ?_, fun h => ?_⟩
  · have htest := h.test binaryPng List.mem_cons_self _ List.mem_cons_self
      ⟨_, rfl, rfl, rfl⟩ _ _ rfl rfl
    exact absurd htest (by decide +kernel)
  · have hadmits := (h.admits (parsedPart "image" [1, 2, 3]) rfl _ List.mem_cons_self _ rfl).1 _
      List.mem_cons_self
    exact absurd (hadmits.minSize 5 rfl) (by decide)
  · have hsize := h.sizes (parsedPart "note" [1, 2, 3, 4, 5]) rfl "note" (by decide) _
      List.mem_cons_self
    exact absurd hsize (by decide)

end FileRoute

end DjangoBolt.Binding
