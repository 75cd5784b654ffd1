import PhiSidecar.V1.Entities
import PhiSidecar.Wire.ScanSound

/-!
# The log filter (`sidecar.cpp`: `parseLogFilterConfig`, `buildLogFilterCache`, `shouldForwardLog`)

The filter is parsed from `adapter.meta` when a configuration arrives and kept as a priority and a
mask, so that the log path parses nothing. `LogPolicy` is what it is for: a least level and a set of
categories.

* `filterEntries_allows`: the loop over the categories adds those of each entry, although it ends at
  the first `all`.
* `testBit_categoryMask`: the mask has the categories of the array it is built from.
* `shouldForwardLog_policy`: **the cached filter forwards what the policy says, whatever the order and
  the repetition of the categories, and with a level every higher one**.
-/

set_option autoImplicit false

namespace Phi.Host

open Phi.V1 Phi.Wire

/-! ## Names -/

/-- `std::tolower` in the `C` locale. -/
def tolower (ch : UInt8) : UInt8 := if 0x41 ≤ ch ∧ ch ≤ 0x5A then ch + 0x20 else ch

def toLowerAscii (text : Bytes) : Bytes := text.map tolower

/-- The characters `_`, `-`, the space and `.` are dropped. -/
def normalizeCategoryToken (text : Bytes) : Bytes :=
  (toLowerAscii (trim text)).filter fun ch => !(ch == 0x5F || ch == 0x2D || ch == 0x20 || ch == 0x2E)

def logLevelPriority (level : LogLevel) : Nat :=
  if level = .Trace then 0
  else if level = .Debug then 1
  else if level = .Info then 2
  else if level = .Warn then 3
  else if level = .Error then 4
  else 2

def parseLogLevelFilter (text : Bytes) : Option LogLevel :=
  let value := toLowerAscii (trim text)
  if value = lit "trace" then some .Trace
  else if value = lit "debug" then some .Debug
  else if value = lit "info" then some .Info
  else if value = lit "warn" ∨ value = lit "warning" then some .Warn
  else if value = lit "error" ∨ value = lit "critical" then some .Error
  else none

/-- The index, or nothing for the `-1` of an undefined category. -/
def logCategoryIndex (category : LogCategory) : Option (Fin 10) :=
  if h : category.raw.toNat < 10 then some ⟨category.raw.toNat, h⟩ else none

def parseLogCategoryFilter (text : Bytes) : Option LogCategory :=
  let value := normalizeCategoryToken text
  if value = lit "lifecycle" then some .Lifecycle
  else if value = lit "discovery" then some .Discovery
  else if value = lit "network" then some .Network
  else if value = lit "protocol" then some .Protocol
  else if value = lit "device" then some .Device
  else if value = lit "config" then some .Config
  else if value = lit "performance" then some .Performance
  else if value = lit "security" then some .Security
  else if value = lit "database" ∨ value = lit "db" then some .Database
  else if value = lit "internal" then some .Internal
  else none

/-! ## The filter -/

structure LogFilterConfig where
  minLevel : LogLevel := .Debug
  allowAllCategories : Bool := true
  allowedCategories : Vector Bool 10 := Vector.replicate 10 false

/-- The loop over the entries of `categories`. -/
def filterEntries : List Bytes → LogFilterConfig → LogFilterConfig
  | [], out => out
  | itemToken :: categories, out =>
    let item := decodeStringOrDefault itemToken
    if item = [] then filterEntries categories out
    else if normalizeCategoryToken item = lit "all" then { out with allowAllCategories := true }
    else
      match (parseLogCategoryFilter item).bind logCategoryIndex with
      | none => filterEntries categories out
      | some idx =>
        filterEntries categories { out with allowedCategories := out.allowedCategories.set idx true }

/-- `parseLogFilterConfig` from `minLevel` on. -/
def parseLoggingMap (loggingMap : MemberMap) : Option LogFilterConfig :=
  let minLevel := decodeStringOrDefault (member loggingMap (lit "minLevel"))
  let out : LogFilterConfig :=
    { minLevel := if minLevel = [] then .Debug else (parseLogLevelFilter minLevel).getD .Debug }
  let categoriesToken := member loggingMap (lit "categories")
  if categoriesToken = [] then some out
  else
    match parseArrayElements categoriesToken with
    | .error _ => none
    | .ok categories => some (filterEntries categories { out with allowAllCategories := false })

/-- Nothing where the function returns false. -/
def parseLogFilterConfig (metaJson : JsonText) : Option LogFilterConfig :=
  let metaToken := trim metaJson
  if metaToken = [] then some {}
  else
    match parseObjectMembers metaToken with
    | .error _ => none
    | .ok metaMap =>
      let loggingToken := member metaMap (lit "logging")
      if loggingToken = [] then some {}
      else
        match parseObjectMembers loggingToken with
        | .error _ => none
        | .ok loggingMap => parseLoggingMap loggingMap

structure LogFilterCache where
  hasConfig : Bool := false
  forwardingEnabled : Bool := false
  minLevelPriority : Nat := 1
  allowAllCategories : Bool := true
  categoryMask : UInt16 := 0

def AdapterFlag.EnableLogs : AdapterFlags := 0x00000004

def hasFlag (value flag : AdapterFlags) : Bool := value &&& flag == flag

/-- The bit of each category that is allowed. -/
def categoryMask (allowedCategories : Vector Bool 10) : UInt16 :=
  (List.finRange 10).foldl
    (fun mask i => if allowedCategories[i] then mask ||| (1 <<< UInt16.ofNat i) else mask) 0

def buildLogFilterCache (adapter : Adapter) : LogFilterCache :=
  let filter := (parseLogFilterConfig adapter.metaJson).getD {}
  { hasConfig := true
    forwardingEnabled := hasFlag adapter.flags AdapterFlag.EnableLogs
    minLevelPriority := logLevelPriority filter.minLevel
    allowAllCategories := filter.allowAllCategories
    categoryMask := categoryMask filter.allowedCategories }

def shouldForwardLog (cache : LogFilterCache) (level : LogLevel) (category : LogCategory) : Bool :=
  if level = .Error then true
  else if !cache.hasConfig then true
  else if !cache.forwardingEnabled then false
  else if logLevelPriority level < cache.minLevelPriority then false
  else if cache.allowAllCategories then true
  else
    match logCategoryIndex category with
    | none => false
    | some idx => cache.categoryMask &&& (1 <<< UInt16.ofNat idx) != 0

/-! ## The policy -/

/-- A least level and a set of categories. -/
structure LogPolicy where
  minLevel : LogLevel := .Debug
  allows : LogCategory → Prop := fun _ => True

def levelNames : List (Bytes × LogLevel) :=
  [(lit "trace", .Trace), (lit "debug", .Debug), (lit "info", .Info), (lit "warn", .Warn),
    (lit "warning", .Warn), (lit "error", .Error), (lit "critical", .Error)]

def categoryNames : List (Bytes × LogCategory) :=
  [(lit "lifecycle", .Lifecycle), (lit "discovery", .Discovery), (lit "network", .Network),
    (lit "protocol", .Protocol), (lit "device", .Device), (lit "config", .Config),
    (lit "performance", .Performance), (lit "security", .Security), (lit "database", .Database),
    (lit "db", .Database), (lit "internal", .Internal)]

/-- The members of `logging`, if the meta text is an object with an object of that name. -/
def loggingMembers (metaJson : JsonText) : Option MemberMap := do
  let metaMap ← (parseObjectMembers metaJson).toOption
  let logging ← metaMap.entries.lookup (lit "logging")
  (parseObjectMembers logging).toOption

/-- The level that `minLevel` names, if it is a string that names one. -/
def namedLevel (logging : MemberMap) : Option LogLevel := do
  let token ← logging.entries.lookup (lit "minLevel")
  let text ← (decodeJsonString token).toOption
  levelNames.lookup (toLowerAscii (trim text))

/-- The entry is a string that means everything or names the category. -/
def EntryAllows (token : Bytes) (category : LogCategory) : Prop :=
  ∃ item, decodeJsonString token = .ok item ∧
    (normalizeCategoryToken item = lit "all" ∨
      categoryNames.lookup (normalizeCategoryToken item) = some category)

/-- What the members of `logging` ask for. -/
def loggingPolicy (logging : MemberMap) : LogPolicy :=
  let minLevel := (namedLevel logging).getD .Debug
  match logging.entries.lookup (lit "categories") with
  | none => { minLevel }
  | some token =>
    match parseArrayElements token with
    | .error _ => {}
    | .ok entries => { minLevel, allows := fun category => ∃ e ∈ entries, EntryAllows e category }

/-- What the meta text of an adapter asks for. -/
def logPolicy (metaJson : JsonText) : LogPolicy :=
  match loggingMembers metaJson with
  | none => {}
  | some logging => loggingPolicy logging

/-- The adapter's log is forwarded at this level and in this category. -/
def Forwards (adapter : Adapter) (level : LogLevel) (category : LogCategory) : Prop :=
  level = .Error ∨ (hasFlag adapter.flags AdapterFlag.EnableLogs = true ∧
    (logPolicy adapter.metaJson).minLevel.raw ≤ level.raw ∧ (logPolicy adapter.metaJson).allows category)

/-! ## Names -/

theorem lookup_cons_ite {υ : Type} (k key : Bytes) (value : υ) (l : List (Bytes × υ)) :
    List.lookup k ((key, value) :: l) = if k = key then some value else List.lookup k l := by
  rw [List.lookup_cons]
  split
  · next h => rw [if_pos (eq_of_beq h)]
  · next h => rw [if_neg (ne_of_beq_false h)]

theorem parseLogLevelFilter_eq (text : Bytes) :
    parseLogLevelFilter text = levelNames.lookup (toLowerAscii (trim text)) := by
  simp only [parseLogLevelFilter, levelNames, lookup_cons_ite, List.lookup_nil, ite_or]

theorem parseLogCategoryFilter_eq (text : Bytes) :
    parseLogCategoryFilter text = categoryNames.lookup (normalizeCategoryToken text) := by
  simp only [parseLogCategoryFilter, categoryNames, lookup_cons_ite, List.lookup_nil, ite_or]

/-! ## Levels -/

/-- The enumerators. -/
def Defined (level : LogLevel) : Prop := level ∈ [.Trace, .Debug, .Info, .Warn, .Error]

theorem logLevelPriority_lt : ∀ {a b : LogLevel}, Defined a → Defined b →
    (logLevelPriority a < logLevelPriority b ↔ a.raw < b.raw) := by
  intro a b ha hb
  simp only [Defined, List.mem_cons, List.not_mem_nil, or_false] at ha hb
  rcases ha with rfl | rfl | rfl | rfl | rfl <;> rcases hb with rfl | rfl | rfl | rfl | rfl <;> decide

theorem lookup_mem {υ : Type} {k : Bytes} {l : List (Bytes × υ)} {value : υ}
    (h : l.lookup k = some value) : (k, value) ∈ l := by
  obtain ⟨l₁, l₂, rfl, -⟩ := List.lookup_eq_some_iff.1 h
  exact List.mem_append_right _ (.head _)

theorem levelNames_defined {name : Bytes} {level : LogLevel} (h : levelNames.lookup name = some level) :
    Defined level := by
  have hall : ∀ e ∈ levelNames, Defined e.2 := by
    simp [levelNames, Defined]
  exact hall _ (lookup_mem h)

/-! ## The mask -/

/-- The bit of a category. -/
def categoryBit (idx : Fin 10) : UInt16 := 1 <<< UInt16.ofNat idx

theorem categoryBit_and : ∀ i idx : Fin 10, categoryBit i &&& categoryBit idx ≠ 0 ↔ i = idx := by
  decide

theorem and_or_ne_zero {mask bit b : UInt16} :
    (mask ||| bit) &&& b ≠ 0 ↔ mask &&& b ≠ 0 ∨ bit &&& b ≠ 0 := by
  have hdist : (mask ||| bit) &&& b = (mask &&& b) ||| (bit &&& b) := by
    rw [← UInt16.toBitVec_inj]
    simp only [UInt16.toBitVec_and, UInt16.toBitVec_or]
    exact BitVec.and_or_distrib_right
  rw [hdist, Ne, UInt16.or_eq_zero_iff, not_and_or]

/-- One round of the loop over the array, and the loop. -/
theorem foldl_mask_iff (allowed : Vector Bool 10) (idx : Fin 10) (l : List (Fin 10)) (mask : UInt16) :
    l.foldl (fun mask i => if allowed[i] then mask ||| (1 <<< UInt16.ofNat i) else mask) mask &&&
        categoryBit idx ≠ 0 ↔
      mask &&& categoryBit idx ≠ 0 ∨ (idx ∈ l ∧ allowed[idx] = true) := by
  induction l generalizing mask with
  | nil => simp
  | cons i l ih =>
    rw [List.foldl_cons, ih, List.mem_cons]
    split
    · next hi =>
      have hbit : (mask ||| (1 <<< UInt16.ofNat i)) &&& categoryBit idx ≠ 0 ↔
          mask &&& categoryBit idx ≠ 0 ∨ i = idx := by
        rw [← categoryBit_and]
        exact and_or_ne_zero
      rw [hbit]
      constructor
      · rintro ((h | rfl) | ⟨hmem, h⟩)
        · exact .inl h
        · exact .inr ⟨.inl rfl, hi⟩
        · exact .inr ⟨.inr hmem, h⟩
      · rintro (h | ⟨rfl | hmem, h⟩)
        · exact .inl (.inl h)
        · exact .inl (.inr rfl)
        · exact .inr ⟨hmem, h⟩
    · next hi =>
      constructor
      · rintro (h | ⟨hmem, h⟩)
        · exact .inl h
        · exact .inr ⟨.inr hmem, h⟩
      · rintro (h | ⟨rfl | hmem, h⟩)
        · exact .inl h
        · exact absurd h hi
        · exact .inr ⟨hmem, h⟩

/-- **The mask has the categories of its array.** -/
theorem categoryMask_iff (allowed : Vector Bool 10) (idx : Fin 10) :
    categoryMask allowed &&& categoryBit idx ≠ 0 ↔ allowed[idx] = true := by
  rw [categoryMask, foldl_mask_iff]
  simp

/-! ## The entries -/

namespace LogFilterConfig

/-- The filter has the category. -/
def Allows (out : LogFilterConfig) (category : LogCategory) : Prop :=
  out.allowAllCategories = true ∨
    ∃ idx, logCategoryIndex category = some idx ∧ out.allowedCategories[idx] = true

end LogFilterConfig

theorem decodeStringOrDefault_ok {token item : Bytes} (h : decodeJsonString token = .ok item) :
    decodeStringOrDefault token = item := by
  rw [decodeStringOrDefault, h]
  refine ite_eq_right_iff.2 ?_
  rintro rfl
  cases h

theorem decodeStringOrDefault_error {token error : Bytes} (h : decodeJsonString token = .error error) :
    decodeStringOrDefault token = [] := by
  rw [decodeStringOrDefault, h]
  exact ite_self _

/-- What the loop finds in an entry. -/
theorem entryAllows_iff (token : Bytes) (category : LogCategory) :
    EntryAllows token category ↔
      normalizeCategoryToken (decodeStringOrDefault token) = lit "all" ∨
        parseLogCategoryFilter (decodeStringOrDefault token) = some category := by
  rw [parseLogCategoryFilter_eq, EntryAllows]
  cases h : decodeJsonString token with
  | ok item =>
    rw [decodeStringOrDefault_ok h]
    constructor
    · rintro ⟨_, ⟨⟩, hitem⟩
      exact hitem
    · exact fun hitem => ⟨item, rfl, hitem⟩
  | error error =>
    rw [decodeStringOrDefault_error h]
    constructor
    · rintro ⟨_, ⟨⟩, -⟩
    · rintro (hnil | hnil) <;> cases hnil

theorem logCategoryIndex_inj {a b : LogCategory} {idx : Fin 10} (ha : logCategoryIndex a = some idx)
    (hb : logCategoryIndex b = some idx) : a = b := by
  unfold logCategoryIndex at ha hb
  split_ifs at ha hb
  cases a with | mk a
  cases b with | mk b
  have heq := Option.some.inj (ha.trans hb.symm)
  rw [Fin.mk.injEq, UInt8.toNat_inj] at heq
  exact congrArg LogCategory.mk heq

theorem categoryNames_index {name : Bytes} {category : LogCategory}
    (h : categoryNames.lookup name = some category) : ∃ idx, logCategoryIndex category = some idx := by
  have hall : ∀ e ∈ categoryNames, e.2.raw.toNat < 10 := by
    simp only [categoryNames, List.forall_mem_cons]
    decide
  exact ⟨_, dif_pos (hall _ (lookup_mem h))⟩

/-- A category set in the array. -/
theorem allows_set {out : LogFilterConfig} {category added : LogCategory} {idx : Fin 10}
    (hadded : logCategoryIndex added = some idx) :
    LogFilterConfig.Allows { out with allowedCategories := out.allowedCategories.set idx true } category ↔
      out.Allows category ∨ added = category := by
  constructor
  · rintro (h | ⟨i, hi, h⟩)
    · exact .inl (.inl h)
    · by_cases heq : idx = i
      · subst heq
        exact .inr (logCategoryIndex_inj hadded hi)
      · refine .inl (.inr ⟨i, hi, ?_⟩)
        rwa [Fin.getElem_fin, Vector.getElem_set_ne] at h
        exact fun hval => heq (Fin.ext hval)
  · rintro ((h | ⟨i, hi, h⟩) | rfl)
    · exact .inl h
    · refine .inr ⟨i, hi, ?_⟩
      by_cases heq : idx = i
      · subst heq
        simp
      · rwa [Fin.getElem_fin, Vector.getElem_set_ne]
        exact fun hval => heq (Fin.ext hval)
    · exact .inr ⟨idx, hadded, by simp⟩

/-- **The loop adds the categories of every entry**, as if it did not end early. -/
theorem filterEntries_allows (category : LogCategory) (entries : List Bytes) (out : LogFilterConfig) :
    (filterEntries entries out).Allows category ↔
      out.Allows category ∨ ∃ e ∈ entries, EntryAllows e category := by
  induction entries generalizing out with
  | nil => simp [filterEntries]
  | cons token entries ih =>
    have hhead : (∃ e ∈ token :: entries, EntryAllows e category) ↔
        EntryAllows token category ∨ ∃ e ∈ entries, EntryAllows e category := by
      simp
    rw [hhead, entryAllows_iff, filterEntries]
    generalize decodeStringOrDefault token = item
    split_ifs with hnil hall
    · rw [ih]
      subst hnil
      have hskip : ¬(normalizeCategoryToken [] = lit "all" ∨ parseLogCategoryFilter [] = some category) := by
        rintro (h | h) <;> cases h
      simp only [hskip, false_or]
    · exact iff_of_true (.inl rfl) (.inr (.inl (.inl hall)))
    · simp only [hall, false_or]
      cases hparse : parseLogCategoryFilter item with
      | none =>
        simp only [Option.bind_none, reduceCtorEq, false_or]
        exact ih out
      | some added =>
        obtain ⟨idx, hidx⟩ := categoryNames_index (parseLogCategoryFilter_eq item ▸ hparse)
        simp only [Option.bind_some, hidx, Option.some.injEq]
        rw [ih, allows_set hidx, or_assoc]

theorem filterEntries_minLevel (entries : List Bytes) (out : LogFilterConfig) :
    (filterEntries entries out).minLevel = out.minLevel := by
  induction entries generalizing out with
  | nil => rfl
  | cons token entries ih =>
    rw [filterEntries]
    split_ifs
    · exact ih out
    · rfl
    · split
      · exact ih out
      · exact ih _

/-! ## The configuration -/

theorem trim_trim (text : Bytes) : trim (trim text) = trim text := by
  unfold trim
  have hpre := List.rdropWhile_prefix isWs (text.dropWhile isWs)
  have hhead : ((text.dropWhile isWs).rdropWhile isWs).dropWhile isWs =
      (text.dropWhile isWs).rdropWhile isWs := by
    rw [List.dropWhile_eq_self_iff]
    intro hl
    rw [hpre.getElem hl]
    exact List.dropWhile_get_zero_not isWs text (hl.trans_le hpre.length_le)
  rw [hhead, List.rdropWhile_idempotent]

theorem parseObjectMembers_trim (text : Bytes) :
    parseObjectMembers (trim text) = parseObjectMembers text := by
  rw [parseObjectMembers, parseObjectMembers, trim_trim]

/-- The configuration is what the policy says. -/
structure Meets (out : LogFilterConfig) (policy : LogPolicy) : Prop where
  minLevel : out.minLevel = policy.minLevel
  allows : ∀ category, out.Allows category ↔ policy.allows category

theorem Meets.default : Meets {} {} := ⟨rfl, fun _ => iff_of_true (.inl rfl) trivial⟩

/-- The token of a member that is present. -/
theorem member_of_lookup {map : MemberMap} {key token : Bytes} (h : map.entries.lookup key = some token) :
    member map key = token := by
  rw [member, MemberMap.value, h, Option.getD_some]

theorem parseMinLevel {minLevel : Bytes} :
    (if minLevel = [] then LogLevel.Debug else (parseLogLevelFilter minLevel).getD .Debug) =
      (levelNames.lookup (toLowerAscii (trim minLevel))).getD .Debug := by
  split_ifs with hnil
  · subst hnil
    rfl
  · rw [parseLogLevelFilter_eq]

theorem minLevel_eq {logging : MemberMap} (h : Wire.Nonempty logging) :
    (levelNames.lookup (toLowerAscii (trim (decodeStringOrDefault (member logging (lit "minLevel")))))).getD
      .Debug = (namedLevel logging).getD .Debug := by
  unfold namedLevel
  cases hl : logging.entries.lookup (lit "minLevel") with
  | none =>
    rw [(member_eq_nil h _).2 hl]
    rfl
  | some token =>
    rw [member_of_lookup hl, Option.bind_eq_bind, Option.bind_some]
    cases hd : decodeJsonString token with
    | error error =>
      rw [decodeStringOrDefault_error hd]
      rfl
    | ok text =>
      rw [decodeStringOrDefault_ok hd]
      rfl

theorem parseLoggingMap_meets {logging : MemberMap} (h : Wire.Nonempty logging) :
    Meets ((parseLoggingMap logging).getD {}) (loggingPolicy logging) := by
  unfold parseLoggingMap loggingPolicy
  dsimp only
  rw [parseMinLevel, minLevel_eq h]
  cases hl : logging.entries.lookup (lit "categories") with
  | none =>
    rw [if_pos ((member_eq_nil h _).2 hl)]
    exact ⟨rfl, fun _ => iff_of_true (.inl rfl) trivial⟩
  | some token =>
    have hne : member logging (lit "categories") ≠ [] := by
      rw [Ne, member_eq_nil h, hl]
      exact Option.some_ne_none token
    rw [if_neg hne, member_of_lookup hl]
    dsimp only
    cases parseArrayElements token with
    | error error => exact .default
    | ok entries =>
      refine ⟨filterEntries_minLevel entries _, fun category => ?_⟩
      refine (filterEntries_allows category entries _).trans (or_iff_right ?_)
      rintro (hall | ⟨idx, -, hidx⟩)
      · cases hall
      · rw [Fin.getElem_fin, Vector.getElem_replicate] at hidx
        cases hidx

/-- **The parsed configuration is the policy's**, the default where the function returns false. -/
theorem parseLogFilterConfig_meets (metaJson : JsonText) :
    Meets ((parseLogFilterConfig metaJson).getD {}) (logPolicy metaJson) := by
  unfold parseLogFilterConfig logPolicy loggingMembers
  dsimp only
  rw [parseObjectMembers_trim]
  cases hmeta : parseObjectMembers metaJson with
  | error error =>
    dsimp only
    split_ifs <;> exact .default
  | ok metaMap =>
    have htrim : trim metaJson ≠ [] := by
      intro hnil
      rw [← parseObjectMembers_trim, hnil] at hmeta
      cases hmeta
    have hmembers := parseObjectMembers_nonempty hmeta
    rw [if_neg htrim]
    dsimp only [Except.toOption, Option.bind_eq_bind, Option.bind_some]
    cases hlogging : metaMap.entries.lookup (lit "logging") with
    | none =>
      rw [if_pos ((member_eq_nil hmembers _).2 hlogging)]
      exact .default
    | some token =>
      have hne : member metaMap (lit "logging") ≠ [] := by
        rw [Ne, member_eq_nil hmembers, hlogging]
        exact Option.some_ne_none token
      rw [if_neg hne, member_of_lookup hlogging, Option.bind_some]
      cases hmap : parseObjectMembers token with
      | error error => exact .default
      | ok logging => exact parseLoggingMap_meets (parseObjectMembers_nonempty hmap)

/-! ## Forwarding -/

/-- The test of the mask. -/
theorem mask_allows (out : LogFilterConfig) (category : LogCategory) :
    (match logCategoryIndex category with
      | none => false
      | some idx => categoryMask out.allowedCategories &&& (1 <<< UInt16.ofNat idx) != 0) = true ↔
      ∃ idx, logCategoryIndex category = some idx ∧ out.allowedCategories[idx] = true := by
  cases logCategoryIndex category with
  | none => simp
  | some idx =>
    have hmask := categoryMask_iff out.allowedCategories idx
    rw [categoryBit] at hmask
    simp only [bne_iff_ne, hmask, Option.some.injEq, exists_eq_left']

theorem logPolicy_defined (metaJson : JsonText) : Defined (logPolicy metaJson).minLevel := by
  have hdebug : Defined .Debug := by simp [Defined]
  have hnamed (logging : MemberMap) : Defined ((namedLevel logging).getD .Debug) := by
    cases hn : namedLevel logging with
    | none => exact hdebug
    | some level =>
      unfold namedLevel at hn
      simp only [Option.bind_eq_bind, Option.bind_eq_some_iff] at hn
      obtain ⟨token, -, text, -, hlevel⟩ := hn
      exact levelNames_defined hlevel
  unfold logPolicy
  split
  · exact hdebug
  · unfold loggingPolicy
    dsimp only
    split
    · exact hnamed _
    · split
      · exact hdebug
      · exact hnamed _

theorem shouldForwardLog_iff (adapter : Adapter) {level : LogLevel} (hlevel : Defined level)
    (category : LogCategory) :
    shouldForwardLog (buildLogFilterCache adapter) level category = true ↔
      Forwards adapter level category := by
  obtain ⟨hmin, hallows⟩ := parseLogFilterConfig_meets adapter.metaJson
  have hpriority := logLevelPriority_lt hlevel (logPolicy_defined adapter.metaJson)
  unfold shouldForwardLog buildLogFilterCache Forwards
  rw [← hallows, ← hmin] at *
  generalize (parseLogFilterConfig adapter.metaJson).getD {} = out at *
  have hle : out.minLevel.raw ≤ level.raw ↔ ¬logLevelPriority level < logLevelPriority out.minLevel := by
    rw [hpriority, UInt8.not_lt]
  have hmask := mask_allows out category
  dsimp only
  rw [hle, LogFilterConfig.Allows, ← hmask]
  -- the five tests of the function, in their order
  by_cases herror : level = .Error
  · simp [herror]
  · by_cases hflag : hasFlag adapter.flags AdapterFlag.EnableLogs = true
    · by_cases hlow : logLevelPriority level < logLevelPriority out.minLevel
      · simp [herror, hflag, hlow]
      · by_cases hall : out.allowAllCategories = true
        · simp [herror, hflag, hlow, hall]
        · simp only [herror, hflag, hlow, hall, if_false, Bool.not_true, Bool.false_eq_true, false_or,
            true_and, not_false_eq_true]
    · simp [herror, hflag]

/-- Two adapters whose filters differ in the order and the repetition of the categories only. -/
structure SameEntries (a b : Adapter) : Prop where
  flags : a.flags = b.flags
  logging : ∃ la lb ta tb ea eb, loggingMembers a.metaJson = some la ∧ loggingMembers b.metaJson = some lb ∧
    la.entries.lookup (lit "minLevel") = lb.entries.lookup (lit "minLevel") ∧
    la.entries.lookup (lit "categories") = some ta ∧ lb.entries.lookup (lit "categories") = some tb ∧
    parseArrayElements ta = .ok ea ∧ parseArrayElements tb = .ok eb ∧ ∀ e, e ∈ ea ↔ e ∈ eb

theorem forwards_sameEntries {a b : Adapter} (h : SameEntries a b) (level : LogLevel)
    (category : LogCategory) : Forwards a level category ↔ Forwards b level category := by
  obtain ⟨hflags, la, lb, ta, tb, ea, eb, hla, hlb, hmin, hta, htb, hea, heb, hmem⟩ := h
  have hnamed : namedLevel la = namedLevel lb := by
    rw [namedLevel, namedLevel, hmin]
  have hpolicy : logPolicy a.metaJson = logPolicy b.metaJson := by
    simp only [logPolicy, hla, hlb, loggingPolicy, hta, htb, hea, heb, hnamed, hmem]
  rw [Forwards, Forwards, hflags, hpolicy]

/-- An error is the highest level. -/
theorem eq_error_of_le {level : LogLevel} (h : Defined level) (hle : LogLevel.Error.raw ≤ level.raw) :
    level = .Error := by
  simp only [Defined, List.mem_cons, List.not_mem_nil, or_false] at h
  obtain rfl | rfl | rfl | rfl | rfl := h
  all_goals first | rfl | exact absurd hle (by decide)

theorem forwards_mono {adapter : Adapter} {level higher : LogLevel} {category : LogCategory}
    (hhigher : Defined higher) (hle : level.raw ≤ higher.raw) (h : Forwards adapter level category) :
    Forwards adapter higher category := by
  obtain rfl | ⟨hflag, hmin, hallows⟩ := h
  · exact .inl (eq_error_of_le hhigher hle)
  · exact .inr ⟨hflag, UInt8.le_trans hmin hle, hallows⟩

/-- **The log filter is its policy.** -/
theorem shouldForwardLog_policy :
    (∀ (adapter : Adapter) (level : LogLevel) (category : LogCategory), Defined level →
      (shouldForwardLog (buildLogFilterCache adapter) level category = true ↔
        Forwards adapter level category)) ∧
    (∀ (a b : Adapter) (level : LogLevel) (category : LogCategory), SameEntries a b → Defined level →
      shouldForwardLog (buildLogFilterCache a) level category =
        shouldForwardLog (buildLogFilterCache b) level category) ∧
    ∀ (adapter : Adapter) (level higher : LogLevel) (category : LogCategory), Defined level →
      Defined higher → level.raw ≤ higher.raw →
      shouldForwardLog (buildLogFilterCache adapter) level category = true →
      shouldForwardLog (buildLogFilterCache adapter) higher category = true := by
  refine ⟨fun adapter level category hlevel => shouldForwardLog_iff adapter hlevel category, ?_, ?_⟩
  · intro a b level category hsame hlevel
    rw [Bool.eq_iff_iff, shouldForwardLog_iff a hlevel, shouldForwardLog_iff b hlevel]
    exact forwards_sameEntries hsame level category
  · intro adapter level higher category hlevel hhigher hle h
    rw [shouldForwardLog_iff adapter hlevel] at h
    rw [shouldForwardLog_iff adapter hhigher]
    exact forwards_mono hhigher hle h

/-- An adapter whose filter has the level `warning` and the category `Net-Work`, among others. -/
def filteredAdapter : Adapter where
  flags := AdapterFlag.EnableLogs
  metaJson := lit "\x7b\"logging\":\x7b\"minLevel\":\"Warning\",\"categories\":[\"Net-Work\",7,\"x\"]\x7d\x7d"

theorem shouldForwardLog_policy_network : Forwards filteredAdapter .Warn .Network ∧
    ¬Forwards filteredAdapter .Info .Network ∧ ¬Forwards filteredAdapter .Warn .Device := by
  have hpolicy := shouldForwardLog_policy.1 filteredAdapter
  have hrun : shouldForwardLog (buildLogFilterCache filteredAdapter) .Warn .Network = true ∧
      shouldForwardLog (buildLogFilterCache filteredAdapter) .Info .Network = false ∧
      shouldForwardLog (buildLogFilterCache filteredAdapter) .Warn .Device = false := by
    decide +kernel
  rw [← hpolicy _ _ (by simp [Defined]), ← hpolicy _ _ (by simp [Defined]), ← hpolicy _ _ (by simp [Defined]),
    Bool.not_eq_true, Bool.not_eq_true]
  exact hrun

end Phi.Host
