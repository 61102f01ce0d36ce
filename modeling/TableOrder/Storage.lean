import Mathlib.Algebra.Order.Group.Nat
import TableOrder.Common
import TableOrder.Lib.Decimal

/-!
# Files (`storage.c`)

The config file holds the table count and the order-id counter among comments and unknown lines.
`storageLoadConfig` reads it; `rewriteConfigLines` copies it line by line with the two values
replaced. The copy goes through fixed buffers whose bounds the source tests with the untruncated
length of a line, so its result is `none` where it would read or write past one of them.

A log is the list of the texts appended to it, one per `write`.
-/

namespace TableOrder

open CLib

structure StoreConfig where
  maxTables : Int
  nextOrderId : Int
  deriving DecidableEq

/-! ## Reading the config -/

def defaultConfigFile : Bytes :=
  lit "# tables=N sets seat count\n" ++ lit "# next_order_id starts from 1\n" ++
    lit "tables=8\n" ++ lit "next_order_id=1\n"

/-- One turn of the line loop. -/
def configLine (cfg : StoreConfig) (line : Bytes) : StoreConfig :=
  if startsWith (lit "#") line then cfg
  else if startsWith (lit "tables=") line then { cfg with maxTables := atoi (line.drop 7) }
  else if startsWith (lit "next_order_id=") line then
    { cfg with nextOrderId := atoi (line.drop 14) }
  else cfg

/-- The fallback values after the loop. -/
def configDefaults (cfg : StoreConfig) : StoreConfig where
  maxTables := if cfg.maxTables ≤ 0 ∨ MAX_TABLES < cfg.maxTables then 8 else cfg.maxTables
  nextOrderId := if cfg.nextOrderId ≤ 0 then 1 else cfg.nextOrderId

/-- The configuration in a file; a missing file is created with the defaults first. -/
def storageLoadConfig (file : Option Bytes) : StoreConfig :=
  let text := (file.getD defaultConfigFile).take 65536
  configDefaults
    ((tokens (ch '\n') (text.takeWhile (· ≠ 0))).foldl configLine ⟨8, 1⟩)

theorem storageLoadConfig_none : storageLoadConfig none = ⟨8, 1⟩ := by
  decide +kernel

theorem configDefaults_range {cfg : StoreConfig} (h : FitsInt cfg.nextOrderId) :
    1 ≤ (configDefaults cfg).maxTables ∧ (configDefaults cfg).maxTables ≤ MAX_TABLES ∧
      1 ≤ (configDefaults cfg).nextOrderId ∧ FitsInt (configDefaults cfg).nextOrderId := by
  have hT : (MAX_TABLES : Int) = 64 := rfl
  simp only [configDefaults, FitsInt] at h ⊢
  split <;> split <;> omega

theorem configLine_fits {cfg : StoreConfig} (h : FitsInt cfg.nextOrderId) (line : Bytes) :
    FitsInt (configLine cfg line).nextOrderId := by
  unfold configLine
  split
  · exact h
  · split
    · exact h
    · split
      · exact atoi_fits _
      · exact h

/-- Whatever the file holds, the loaded values are in range. -/
theorem storageLoadConfig_range (file : Option Bytes) :
    1 ≤ (storageLoadConfig file).maxTables ∧ (storageLoadConfig file).maxTables ≤ MAX_TABLES ∧
      1 ≤ (storageLoadConfig file).nextOrderId ∧ FitsInt (storageLoadConfig file).nextOrderId := by
  apply configDefaults_range
  generalize tokens (ch '\n') _ = lines
  have hstart : FitsInt (StoreConfig.mk 8 1).nextOrderId := by decide
  revert hstart
  generalize StoreConfig.mk 8 1 = cfg
  intro hcfg
  induction lines generalizing cfg with
  | nil => exact hcfg
  | cons line lines ih => exact ih _ (configLine_fits hcfg line)

/-! ## Rewriting the config -/

/-- The text of a line in the new file. -/
def rewrittenLine (cfg : StoreConfig) (line : Bytes) : Bytes :=
  if startsWith (lit "#") line then line ++ lit "\n"
  else if startsWith (lit "tables=") line then lit "tables=" ++ fmtInt cfg.maxTables ++ lit "\n"
  else if startsWith (lit "next_order_id=") line then
    lit "next_order_id=" ++ fmtInt cfg.nextOrderId ++ lit "\n"
  else line ++ lit "\n"

/-- The keys seen so far. -/
structure SawKeys where
  tables : Bool
  next : Bool

def SawKeys.see (saw : SawKeys) (line : Bytes) : SawKeys :=
  if startsWith (lit "tables=") line then { saw with tables := true }
  else if startsWith (lit "next_order_id=") line then { saw with next := true }
  else saw

/-- The line loop over `outbuf[8192]`. `memcpy` copies as many bytes as the untruncated text has
out of `tmp[512]`, which holds 511 of them and a terminator. -/
def rewriteLoop (cfg : StoreConfig) (out : Bytes) (saw : SawKeys) :
    List Bytes → Option (Bytes × SawKeys)
  | [] => some (out, saw)
  | line :: lines =>
    let text := rewrittenLine cfg line
    if 8192 ≤ out.length + text.length then some (out, saw.see line)
    else if 512 < text.length then none
    else
      rewriteLoop cfg (out ++ (text.take 511 ++ [0]).take text.length) (saw.see line) lines

/-- `snprintf(outbuf + opos, sizeof(outbuf) - opos, …)` and `opos += n`. At `opos = 8192` the last
byte stored is the terminator; past it the later uses of `opos` leave the buffer. -/
def appendAt (out text : Bytes) : Option Bytes :=
  if out.length + text.length < 8192 then some (out ++ text)
  else if out.length + text.length = 8192 then some (out ++ text.dropLast ++ [0])
  else none

def rewriteConfigLines (old : Option Bytes) (cfg : StoreConfig) : Option Bytes :=
  let buf := match old with
    | some (b :: text) => b :: text
    | _ => lit "# tables=N sets seat count\n" ++ lit "# next_order_id persists counters\n" ++
        lit "tables=8\n" ++ lit "next_order_id=1\n"
  match rewriteLoop cfg [] ⟨false, false⟩
      (tokens (ch '\n') (clip 8192 (buf.takeWhile (· ≠ 0)))) with
  | none => none
  | some (out, saw) =>
    let withTables := if saw.tables then some out
      else appendAt out (lit "tables=" ++ fmtInt cfg.maxTables ++ lit "\n")
    match withTables with
    | none => none
    | some out =>
      if saw.next then some out
      else appendAt out (lit "next_order_id=" ++ fmtInt cfg.nextOrderId ++ lit "\n")

/-- The new content of the config file. -/
def storageSaveConfig (old : Option Bytes) (cfg : StoreConfig) : Option Bytes :=
  rewriteConfigLines old cfg

/-! ## A file that fits the buffers

The lines of a file keep their kind when it is rewritten, so its bound counts the two keys with the
longest numbers. A file within it is rewritten whole, into a file within it, and the counter is read
back (`rewriteConfigLines_fits`). -/

def isTables (line : Bytes) : Bool := startsWith (lit "tables=") line

def isNext (line : Bytes) : Bool := startsWith (lit "next_order_id=") line

def configLines (text : Bytes) : List Bytes := tokens (ch '\n') (text.takeWhile (· ≠ 0))

/-- The text that is rewritten. -/
def configText (old : Option Bytes) : Bytes :=
  match old with
  | some (b :: text) => b :: text
  | _ => lit "# tables=N sets seat count\n" ++ lit "# next_order_id persists counters\n" ++
      lit "tables=8\n" ++ lit "next_order_id=1\n"

/-- What a line can take up with its newline. -/
def lineRoom (line : Bytes) : Nat :=
  if isTables line then 19 else if isNext line then 26 else line.length + 1

def configRoom (lines : List Bytes) : Nat :=
  (lines.map lineRoom).sum + (if lines.any isTables then 0 else 19) +
    (if lines.any isNext then 0 else 26)

structure ConfigFits (text : Bytes) : Prop where
  size : (text.takeWhile (· ≠ 0)).length < 8192
  lines : ∀ line ∈ configLines text, line.length < 511
  room : configRoom (configLines text) < 8192

structure StoreConfig.Fits (cfg : StoreConfig) : Prop where
  maxTables : FitsInt cfg.maxTables
  nextOrderId : FitsInt cfg.nextOrderId

def tablesLine (cfg : StoreConfig) : Bytes := lit "tables=" ++ fmtInt cfg.maxTables

def nextLine (cfg : StoreConfig) : Bytes := lit "next_order_id=" ++ fmtInt cfg.nextOrderId

/-- A rewritten line without its newline. -/
def rewrittenBody (cfg : StoreConfig) (line : Bytes) : Bytes :=
  if isTables line then tablesLine cfg else if isNext line then nextLine cfg else line

@[simp] theorem isTables_tablesLine (cfg : StoreConfig) : isTables (tablesLine cfg) = true :=
  startsWith_append _ _

@[simp] theorem isNext_nextLine (cfg : StoreConfig) : isNext (nextLine cfg) = true :=
  startsWith_append _ _

theorem isTables_ne (line : Bytes) (h : isTables line = true) :
    isNext line = false ∧ startsWith (lit "#") line = false := by
  rw [eq_append_of_startsWith h]
  exact ⟨rfl, rfl⟩

theorem isNext_ne (line : Bytes) (h : isNext line = true) :
    isTables line = false ∧ startsWith (lit "#") line = false := by
  rw [eq_append_of_startsWith h]
  exact ⟨rfl, rfl⟩

theorem rewrittenLine_eq (cfg : StoreConfig) (line : Bytes) :
    rewrittenLine cfg line = rewrittenBody cfg line ++ [ch '\n'] := by
  have hnl : lit "\n" = [ch '\n'] := by decide
  unfold rewrittenLine rewrittenBody
  rw [hnl]
  show (if startsWith (lit "#") line = true then line ++ [ch '\n']
    else if isTables line = true then tablesLine cfg ++ [ch '\n']
    else if isNext line = true then nextLine cfg ++ [ch '\n']
    else line ++ [ch '\n']) = _
  by_cases htables : isTables line = true
  · simp [htables, isTables_ne line htables]
  · by_cases hnext : isNext line = true
    · simp [hnext, isNext_ne line hnext]
    · simp [htables, hnext]

/-- Rewriting keeps the kind of a line. -/
theorem rewrittenBody_kind (cfg : StoreConfig) (line : Bytes) :
    isTables (rewrittenBody cfg line) = isTables line ∧
      isNext (rewrittenBody cfg line) = isNext line := by
  unfold rewrittenBody
  by_cases htables : isTables line = true
  · have htext := isTables_tablesLine cfg
    simp [htables, isTables_ne _ htables, isTables_ne _ htext]
  · by_cases hnext : isNext line = true
    · have htext := isNext_nextLine cfg
      simp [hnext, isNext_ne _ hnext, isNext_ne _ htext]
    · simp [htables, hnext]

theorem lineRoom_rewrittenBody (cfg : StoreConfig) (line : Bytes) :
    lineRoom (rewrittenBody cfg line) = lineRoom line := by
  obtain ⟨htables, hnext⟩ := rewrittenBody_kind cfg line
  by_cases hplain : isTables line = true ∨ isNext line = true
  · rcases hplain with h | h <;> simp [lineRoom, htables, hnext, h]
  · rw [not_or] at hplain
    simp [rewrittenBody, hplain.1, hplain.2]

section Fits

variable {cfg : StoreConfig} (hcfg : cfg.Fits)

include hcfg

theorem length_tablesLine_lt : (tablesLine cfg).length < 19 := by
  have hnum := length_fmtInt_le hcfg.maxTables
  have hkey : (lit "tables=").length = 7 := by decide
  rw [tablesLine, List.length_append]
  omega

theorem length_nextLine_lt : (nextLine cfg).length < 26 := by
  have hnum := length_fmtInt_le hcfg.nextOrderId
  have hkey : (lit "next_order_id=").length = 14 := by decide
  rw [nextLine, List.length_append]
  omega

theorem length_rewrittenBody_lt (line : Bytes) : (rewrittenBody cfg line).length < lineRoom line := by
  have htables := length_tablesLine_lt hcfg
  have hnext := length_nextLine_lt hcfg
  unfold rewrittenBody lineRoom
  split
  · exact htables
  · split
    · exact hnext
    · omega

theorem length_rewrittenLine_le {line : Bytes} (h : line.length < 511) :
    (rewrittenLine cfg line).length ≤ 511 := by
  have hbody := length_rewrittenBody_lt hcfg line
  have hroom : lineRoom line ≤ 511 := by
    unfold lineRoom
    split
    · omega
    · split <;> omega
  rw [rewrittenLine_eq, List.length_append, List.length_singleton]
  omega

end Fits

/-- The loop copies every line whole, when the lines fit `tmp` and all of them together `outbuf`. -/
theorem rewriteLoop_whole {cfg : StoreConfig} {lines : List Bytes}
    (hlines : ∀ line ∈ lines, (rewrittenLine cfg line).length ≤ 511) (out : Bytes) (saw : SawKeys)
    (hroom : (out ++ (lines.map (rewrittenBody cfg)).flatMap (· ++ [ch '\n'])).length < 8192) :
    rewriteLoop cfg out saw lines =
      some (out ++ (lines.map (rewrittenBody cfg)).flatMap (· ++ [ch '\n']),
        lines.foldl SawKeys.see saw) := by
  induction lines generalizing out saw with
  | nil => simp [rewriteLoop]
  | cons line lines ih =>
    have hshort := hlines line List.mem_cons_self
    rw [List.map_cons, List.flatMap_cons, ← rewrittenLine_eq, ← List.append_assoc] at hroom ⊢
    have hline : (out ++ rewrittenLine cfg line).length < 8192 := by
      rw [List.length_append] at hroom
      omega
    rw [List.length_append] at hline
    have hcopied : ((rewrittenLine cfg line).take 511 ++ [0]).take (rewrittenLine cfg line).length =
        rewrittenLine cfg line := by
      have hwhole : (rewrittenLine cfg line).take 511 = rewrittenLine cfg line :=
        List.take_of_length_le hshort
      rw [hwhole, List.take_left]
    unfold rewriteLoop
    simp only
    rw [if_neg (by omega), if_neg (by omega), hcopied,
      ih (fun l hl => hlines l (List.mem_cons_of_mem _ hl)) _ _ hroom]
    rfl

theorem see_eq (saw : SawKeys) (line : Bytes) : saw.see line =
    if isTables line then { saw with tables := true }
    else if isNext line then { saw with next := true }
    else saw := rfl

theorem foldl_see (lines : List Bytes) (saw : SawKeys) : lines.foldl SawKeys.see saw =
    ⟨saw.tables || lines.any isTables, saw.next || lines.any isNext⟩ := by
  induction lines generalizing saw with
  | nil => simp
  | cons line lines ih =>
    rw [List.foldl_cons, ih, see_eq]
    by_cases htables : isTables line = true
    · rw [if_pos htables]
      simp [htables, isTables_ne line htables]
    · rw [if_neg htables]
      by_cases hnext : isNext line = true
      · rw [if_pos hnext]
        simp [htables, hnext]
      · rw [if_neg hnext]
        simp [htables, hnext]

/-- The lines of the new file. -/
def newConfigLines (cfg : StoreConfig) (lines : List Bytes) : List Bytes :=
  lines.map (rewrittenBody cfg) ++ (if lines.any isTables then [] else [tablesLine cfg]) ++
    (if lines.any isNext then [] else [nextLine cfg])

theorem configRoom_append_of_tables (lines : List Bytes) {line : Bytes} (h : isTables line = true)
    (hnone : lines.any isTables = false) : configRoom (lines ++ [line]) = configRoom lines := by
  simp [configRoom, lineRoom, h, hnone, isTables_ne line h]

theorem configRoom_append_of_next (lines : List Bytes) {line : Bytes} (h : isNext line = true)
    (hnone : lines.any isNext = false) : configRoom (lines ++ [line]) = configRoom lines := by
  have hne := isNext_ne line h
  simp [configRoom, lineRoom, h, hne, hnone]
  omega

/-- The new file needs as much room as the old one. -/
theorem configRoom_newConfigLines (cfg : StoreConfig) (lines : List Bytes) :
    configRoom (newConfigLines cfg lines) = configRoom lines := by
  let bodies := lines.map (rewrittenBody cfg)
  have htables : bodies.any isTables = lines.any isTables := by
    simp [bodies, List.any_map, Function.comp_def, rewrittenBody_kind]
  have hnext : bodies.any isNext = lines.any isNext := by
    simp [bodies, List.any_map, Function.comp_def, rewrittenBody_kind]
  have hbodies : configRoom bodies = configRoom lines := by
    unfold configRoom
    rw [htables, hnext]
    simp [bodies, Function.comp_def, lineRoom_rewrittenBody]
  let withTables := bodies ++ (if lines.any isTables then [] else [tablesLine cfg])
  have hroom : configRoom withTables = configRoom lines ∧
      withTables.any isNext = lines.any isNext := by
    by_cases h : lines.any isTables = true
    · simp only [withTables, if_pos h, List.append_nil]
      exact ⟨hbodies, hnext⟩
    · simp only [withTables, if_neg h]
      have hline := isTables_tablesLine cfg
      rw [configRoom_append_of_tables _ hline (by rw [htables]; simpa using h), List.any_append, hnext]
      exact ⟨hbodies, by simp [isTables_ne _ hline]⟩
  show configRoom (withTables ++ (if lines.any isNext then [] else [nextLine cfg])) = _
  by_cases h : lines.any isNext = true
  · rw [if_pos h, List.append_nil]
    exact hroom.1
  · rw [if_neg h, configRoom_append_of_next _ (isNext_nextLine cfg)]
    · exact hroom.1
    · rw [hroom.2]
      simpa using h

theorem newConfigLines_forall {P : Bytes → Prop} {cfg : StoreConfig} {lines : List Bytes}
    (hlines : ∀ line ∈ lines, isTables line = false → isNext line = false → P line)
    (htables : P (tablesLine cfg)) (hnext : P (nextLine cfg)) :
    ∀ line ∈ newConfigLines cfg lines, P line := by
  intro line hmem
  unfold newConfigLines at hmem
  rcases List.mem_append.mp hmem with hmem | hmem
  · rcases List.mem_append.mp hmem with hmem | hmem
    · obtain ⟨old, hold, rfl⟩ := List.mem_map.mp hmem
      unfold rewrittenBody
      split
      · exact htables
      · next hnot =>
        split
        · exact hnext
        · next hnot' => exact hlines old hold (by simpa using hnot) (by simpa using hnot')
    · split at hmem
      · cases hmem
      · exact List.mem_singleton.mp hmem ▸ htables
  · split at hmem
    · cases hmem
    · exact List.mem_singleton.mp hmem ▸ hnext

theorem exists_isTables (cfg : StoreConfig) (lines : List Bytes) :
    (newConfigLines cfg lines).any isTables = true := by
  unfold newConfigLines
  rw [List.any_append, List.any_append]
  by_cases h : lines.any isTables = true
  · have hbodies : (lines.map (rewrittenBody cfg)).any isTables = true := by
      simpa [List.any_map, Function.comp_def, rewrittenBody_kind] using h
    rw [hbodies]
    simp
  · rw [if_neg h]
    simp

theorem exists_isNext (cfg : StoreConfig) (lines : List Bytes) :
    (newConfigLines cfg lines).any isNext = true := by
  unfold newConfigLines
  rw [List.any_append]
  by_cases h : lines.any isNext = true
  · have hbodies : (lines.map (rewrittenBody cfg)).any isNext = true := by
      simpa [List.any_map, Function.comp_def, rewrittenBody_kind] using h
    rw [List.any_append, hbodies]
    simp
  · rw [if_neg h]
    simp

theorem configLine_maxTables (cfg : StoreConfig) (line : Bytes) : (configLine cfg line).maxTables =
    if isTables line then atoi (line.drop 7) else cfg.maxTables := by
  show (if startsWith (lit "#") line = true then cfg
    else if isTables line = true then { cfg with maxTables := atoi (line.drop 7) }
    else if isNext line = true then { cfg with nextOrderId := atoi (line.drop 14) }
    else cfg).maxTables = _
  by_cases htables : isTables line = true
  · simp [htables, isTables_ne line htables]
  · rw [if_neg htables, if_neg htables]
    split
    · rfl
    · split <;> rfl

theorem configLine_nextOrderId (cfg : StoreConfig) (line : Bytes) :
    (configLine cfg line).nextOrderId =
      if isNext line then atoi (line.drop 14) else cfg.nextOrderId := by
  show (if startsWith (lit "#") line = true then cfg
    else if isTables line = true then { cfg with maxTables := atoi (line.drop 7) }
    else if isNext line = true then { cfg with nextOrderId := atoi (line.drop 14) }
    else cfg).nextOrderId = _
  by_cases hnext : isNext line = true
  · simp [hnext, isNext_ne line hnext]
  · rw [if_neg hnext, if_neg hnext]
    split
    · rfl
    · split <;> rfl

/-- What the loader makes of the lines of one key, when each has the same value. -/
theorem foldl_configLine {f : StoreConfig → Int} {isKey : Bytes → Bool} {value : Bytes → Int}
    (hstep : ∀ cfg line, f (configLine cfg line) = if isKey line then value line else f cfg) {n : Int}
    {lines : List Bytes} (h : ∀ line ∈ lines, isKey line = true → value line = n)
    (cfg : StoreConfig) : f (lines.foldl configLine cfg) = if lines.any isKey then n else f cfg := by
  induction lines generalizing cfg with
  | nil => rfl
  | cons line lines ih =>
    rw [List.foldl_cons, ih (fun l hl => h l (List.mem_cons_of_mem _ hl)), hstep]
    by_cases hkey : isKey line = true
    · simp [hkey, h line List.mem_cons_self hkey]
    · simp [hkey]

/-- A file of whole lines, and the lines in it. -/
theorem configLines_flatMap {lines : List Bytes} (hne : ∀ line ∈ lines, line ≠ [])
    (hnl : ∀ line ∈ lines, ch '\n' ∉ line) (hnul : ∀ line ∈ lines, 0 ∉ line) :
    (lines.flatMap (· ++ [ch '\n'])).takeWhile (· ≠ 0) = lines.flatMap (· ++ [ch '\n']) ∧
      configLines (lines.flatMap (· ++ [ch '\n'])) = lines := by
  have hfree : 0 ∉ lines.flatMap (· ++ [ch '\n']) := by
    intro hzero
    obtain ⟨line, hline, hzero⟩ := List.mem_flatMap.mp hzero
    rcases List.mem_append.mp hzero with hzero | hzero
    · exact hnul line hline hzero
    · revert hzero
      decide
  have hwhole := takeWhile_noNul hfree
  refine ⟨hwhole, ?_⟩
  have htokens := tokens_fields hne hnl []
  rw [List.append_nil, tokens_nil, List.append_nil] at htokens
  rw [configLines, hwhole, htokens]

theorem length_flatMap_newline (lines : List Bytes) :
    (lines.flatMap (· ++ [ch '\n'])).length = (lines.map (·.length + 1)).sum := by
  rw [List.length_flatMap]
  simp

/-- A key that no line had is appended, with a newline. -/
theorem appendAt_unless {saw : Bool} {out body : Bytes}
    (h : (out ++ if saw then [] else body ++ [ch '\n']).length < 8192) :
    (if saw then some out else appendAt out (body ++ [ch '\n'])) =
      some (out ++ if saw then [] else body ++ [ch '\n']) := by
  cases saw with
  | true => simp
  | false =>
    simp only [Bool.false_eq_true, if_false] at h ⊢
    unfold appendAt
    rw [← List.length_append, if_pos h]

/-- The loop, and then each key that no line had. -/
theorem rewriteConfigLines_of_loop {old : Option Bytes} {cfg : StoreConfig} {out withTables text : Bytes}
    {saw : SawKeys}
    (hloop : rewriteLoop cfg [] ⟨false, false⟩
      (tokens (ch '\n') (clip 8192 ((configText old).takeWhile (· ≠ 0)))) = some (out, saw))
    (htables : (if saw.tables then some out else appendAt out (tablesLine cfg ++ [ch '\n'])) =
      some withTables)
    (hnext : (if saw.next then some withTables
      else appendAt withTables (nextLine cfg ++ [ch '\n'])) = some text) :
    rewriteConfigLines old cfg = some text := by
  have hnl : lit "\n" = [ch '\n'] := by decide
  show (match rewriteLoop cfg [] ⟨false, false⟩
      (tokens (ch '\n') (clip 8192 ((configText old).takeWhile (· ≠ 0)))) with
    | none => none
    | some (out, saw) =>
      match if saw.tables then some out
        else appendAt out (tablesLine cfg ++ lit "\n") with
      | none => none
      | some out =>
        if saw.next then some out else appendAt out (nextLine cfg ++ lit "\n")) = _
  rw [hloop, hnl]
  simp only
  rw [htables]
  exact hnext

theorem rewriteConfigLines_eq {old : Option Bytes}
    (hsize : ((configText old).takeWhile (· ≠ 0)).length < 8192)
    (hshort : ∀ line ∈ configLines (configText old), line.length < 511) {cfg : StoreConfig}
    (hcfg : cfg.Fits)
    (hlen : ((newConfigLines cfg (configLines (configText old))).flatMap (· ++ [ch '\n'])).length <
      8192) : rewriteConfigLines old cfg =
    some ((newConfigLines cfg (configLines (configText old))).flatMap (· ++ [ch '\n'])) := by
  let lines := configLines (configText old)
  have hbuf : clip 8192 ((configText old).takeWhile (· ≠ 0)) = (configText old).takeWhile (· ≠ 0) :=
    clip_eq_self hsize
  let bodies := (lines.map (rewrittenBody cfg)).flatMap (· ++ [ch '\n'])
  have hparts : (newConfigLines cfg lines).flatMap (· ++ [ch '\n']) =
      bodies ++ (if lines.any isTables then [] else tablesLine cfg ++ [ch '\n']) ++
        (if lines.any isNext then [] else nextLine cfg ++ [ch '\n']) := by
    unfold newConfigLines
    rw [List.flatMap_append, List.flatMap_append]
    congr 2
    · split <;> simp
    · split <;> simp
  rw [hparts] at hlen ⊢
  have hfirst : (bodies ++ if lines.any isTables then [] else tablesLine cfg ++ [ch '\n']).length <
      8192 := by
    rw [List.length_append] at hlen
    omega
  have hbodies : ([] ++ bodies).length < 8192 := by
    rw [List.length_append] at hfirst
    rw [List.nil_append]
    omega
  have hloop := rewriteLoop_whole (fun line hline => length_rewrittenLine_le hcfg (hshort line hline))
    [] ⟨false, false⟩ hbodies
  rw [foldl_see, List.nil_append, Bool.false_or, Bool.false_or] at hloop
  apply rewriteConfigLines_of_loop
  · rw [hbuf]
    exact hloop
  · exact appendAt_unless hfirst
  · exact appendAt_unless hlen

theorem tablesLine_free {b : UInt8} (hkey : b ∉ lit "tables=") (hdigit : isDigit b = false)
    (hminus : b ≠ ch '-') (cfg : StoreConfig) : b ∉ tablesLine cfg := by
  unfold tablesLine
  rw [List.mem_append, not_or]
  exact ⟨hkey, not_mem_fmtInt hdigit hminus _⟩

theorem nextLine_free {b : UInt8} (hkey : b ∉ lit "next_order_id=") (hdigit : isDigit b = false)
    (hminus : b ≠ ch '-') (cfg : StoreConfig) : b ∉ nextLine cfg := by
  unfold nextLine
  rw [List.mem_append, not_or]
  exact ⟨hkey, not_mem_fmtInt hdigit hminus _⟩

/-- A line of the config file: a piece of a C string between newlines. -/
def IsConfigLine (line : Bytes) : Prop := line ≠ [] ∧ ch '\n' ∉ line ∧ 0 ∉ line

theorem isConfigLine_of_mem {text line : Bytes} (h : line ∈ configLines text) : IsConfigLine line := by
  obtain ⟨hne, hnl, hsub⟩ := mem_tokens h
  refine ⟨hne, hnl, ?_⟩
  intro hzero
  simpa using List.mem_takeWhile_imp (hsub 0 hzero)

theorem isConfigLine_newConfigLines (cfg : StoreConfig) {lines : List Bytes}
    (h : ∀ line ∈ lines, IsConfigLine line) : ∀ line ∈ newConfigLines cfg lines, IsConfigLine line := by
  apply newConfigLines_forall
  · exact fun line hline _ _ => h line hline
  · exact ⟨by simp [tablesLine, fmtInt_ne_nil], tablesLine_free (by decide) (by decide) (by decide) cfg,
      tablesLine_free (by decide) (by decide) (by decide) cfg⟩
  · exact ⟨by simp [nextLine, fmtInt_ne_nil], nextLine_free (by decide) (by decide) (by decide) cfg,
      nextLine_free (by decide) (by decide) (by decide) cfg⟩

/-- The new file takes no more than the room of its lines. -/
theorem length_newConfig_le {cfg : StoreConfig} (hcfg : cfg.Fits) (lines : List Bytes) :
    ((newConfigLines cfg lines).flatMap (· ++ [ch '\n'])).length ≤ configRoom lines := by
  have htables := length_tablesLine_lt hcfg
  have hnext := length_nextLine_lt hcfg
  have hshort : ∀ line ∈ newConfigLines cfg lines, line.length < lineRoom line := by
    apply newConfigLines_forall
    · intro line _ ht hn
      simp [lineRoom, ht, hn]
    · simpa [lineRoom] using htables
    · simpa [lineRoom, isNext_ne _ (isNext_nextLine cfg)] using hnext
  have hsum : ((newConfigLines cfg lines).map (·.length + 1)).sum ≤
      ((newConfigLines cfg lines).map lineRoom).sum := List.sum_le_sum hshort
  rw [← configRoom_newConfigLines cfg lines, length_flatMap_newline]
  unfold configRoom
  omega

/-- Every key line of the new file has the number of the config. -/
theorem atoi_tablesLines {cfg : StoreConfig} (hcfg : cfg.Fits) (lines : List Bytes) :
    ∀ line ∈ newConfigLines cfg lines, isTables line = true →
      atoi (line.drop 7) = cfg.maxTables := by
  apply newConfigLines_forall
  · intro line _ hno _ hyes
    rw [hno] at hyes
    cases hyes
  · intro _
    have hdrop : (tablesLine cfg).drop 7 = fmtInt cfg.maxTables := rfl
    rw [hdrop, atoi_fmtInt hcfg.maxTables]
  · intro hyes
    rw [(isNext_ne _ (isNext_nextLine cfg)).1] at hyes
    cases hyes

theorem atoi_nextLines {cfg : StoreConfig} (hcfg : cfg.Fits) (lines : List Bytes) :
    ∀ line ∈ newConfigLines cfg lines, isNext line = true →
      atoi (line.drop 14) = cfg.nextOrderId := by
  apply newConfigLines_forall
  · intro line _ _ hno hyes
    rw [hno] at hyes
    cases hyes
  · intro hyes
    rw [(isTables_ne _ (isTables_tablesLine cfg)).1] at hyes
    cases hyes
  · intro _
    have hdrop : (nextLine cfg).drop 14 = fmtInt cfg.nextOrderId := rfl
    rw [hdrop, atoi_fmtInt hcfg.nextOrderId]

/-- The loader reads these lines. -/
theorem storageLoadConfig_lines {text : Bytes} (hlen : text.length ≤ 65536) :
    storageLoadConfig (some text) = configDefaults ((configLines text).foldl configLine ⟨8, 1⟩) := by
  unfold storageLoadConfig
  simp only [Option.getD_some]
  rw [List.take_of_length_le hlen]
  rfl

/-- A file that fits is rewritten into one that fits, from which the counter is read back. -/
theorem rewriteConfigLines_fits {old : Option Bytes} (h : ConfigFits (configText old))
    {cfg : StoreConfig} (hcfg : cfg.Fits) :
    ∃ text, rewriteConfigLines old cfg = some text ∧ text ≠ [] ∧ ConfigFits text ∧
      (1 ≤ cfg.nextOrderId → (storageLoadConfig (some text)).nextOrderId = cfg.nextOrderId) := by
  let lines := configLines (configText old)
  let new := newConfigLines cfg lines
  have htables := length_tablesLine_lt hcfg
  have hnext := length_nextLine_lt hcfg
  have hnew : ∀ line ∈ new, IsConfigLine line :=
    isConfigLine_newConfigLines cfg fun line hline => isConfigLine_of_mem hline
  have hlen : (new.flatMap (· ++ [ch '\n'])).length < 8192 :=
    lt_of_le_of_lt (length_newConfig_le hcfg lines) h.room
  obtain ⟨hwhole, hlines⟩ := configLines_flatMap (fun l hl => (hnew l hl).1)
    (fun l hl => (hnew l hl).2.1) (fun l hl => (hnew l hl).2.2)
  refine ⟨new.flatMap (· ++ [ch '\n']), rewriteConfigLines_eq h.size h.lines hcfg hlen, ?_,
    ⟨?_, ?_, ?_⟩, ?_⟩
  · -- there is a counter line
    obtain ⟨line, hline, -⟩ := List.any_eq_true.mp (exists_isNext cfg lines)
    intro hnil
    have hmem : ch '\n' ∈ new.flatMap (· ++ [ch '\n']) :=
      List.mem_flatMap.mpr ⟨line, hline, by simp⟩
    rw [hnil] at hmem
    cases hmem
  · rw [hwhole]
    exact hlen
  · rw [hlines]
    apply newConfigLines_forall
    · exact fun line hline _ _ => h.lines line hline
    · omega
    · omega
  · rw [hlines, configRoom_newConfigLines]
    exact h.room
  · intro hpos
    rw [storageLoadConfig_lines (le_trans hlen.le (by decide)), hlines, configDefaults]
    simp only
    rw [foldl_configLine configLine_nextOrderId (atoi_nextLines hcfg lines), exists_isNext, if_pos rfl,
      if_neg (by omega)]

/-! ## Logs -/

/-- What the system calls of `append_file` do: `open` fails, or `write` takes `n` bytes. -/
inductive AppendResult where
  | openFails
  | writes (n : Nat)

/-- The log and whether the line was appended whole. -/
def appendFile (r : AppendResult) (file : List Bytes) (line : Bytes) : List Bytes × Bool :=
  match r with
  | .openFails => (file, false)
  | .writes n => if line.length ≤ n then (file ++ [line], true) else (file ++ [line.take n], false)

end TableOrder
