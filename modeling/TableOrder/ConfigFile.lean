import TableOrder.Storage

/-!
# Saving the config (`rewrite_config_lines`)

A save edits the text that is in the file. Where the lines and the new text fit the buffers, the file
holds the config afterwards, the comments and unknown lines are still there, and a second save of the
same config changes nothing (`saveConfig_loads`). Where they do not, `rewrite_config_lines` copies and
writes what lies behind what it has formatted; `insideBuffers_iff` says for which files.
-/

namespace TableOrder

open CLib

/-! ## Files that fit -/

/-- A comment or an unknown line. -/
def isKept (line : Bytes) : Bool := !isTables line && !isNext line

/-- The values a config can have in a running server. -/
structure StoreConfig.InRange (cfg : StoreConfig) : Prop where
  maxTables : 1 ≤ cfg.maxTables ∧ cfg.maxTables ≤ MAX_TABLES
  nextOrderId : 1 ≤ cfg.nextOrderId ∧ FitsInt cfg.nextOrderId

/-- The lines of the old text rewritten, and those of the keys it does not have. -/
def newConfigText (old : Bytes) (cfg : StoreConfig) : Bytes :=
  (newConfigLines cfg (configLines (configText (some old)))).flatMap (· ++ [ch '\n'])

theorem StoreConfig.InRange.fits {cfg : StoreConfig} (h : cfg.InRange) : cfg.Fits := by
  have hT : (MAX_TABLES : Int) = 64 := rfl
  obtain ⟨⟨hmin, hmax⟩, -, hnext⟩ := h
  exact ⟨⟨by omega, by omega⟩, hnext⟩

/-- The fallbacks of the loader leave it alone. -/
theorem StoreConfig.InRange.configDefaults_eq {cfg : StoreConfig} (h : cfg.InRange) :
    configDefaults cfg = cfg := by
  obtain ⟨⟨hmin, hmax⟩, hnext, -⟩ := h
  unfold configDefaults
  rw [if_neg (by omega), if_neg (by omega)]

theorem rewrittenBody_fixed {cfg : StoreConfig} {lines : List Bytes} :
    ∀ line ∈ newConfigLines cfg lines, rewrittenBody cfg line = line := by
  apply newConfigLines_forall
  · intro line _ htables hnext
    simp [rewrittenBody, htables, hnext]
  · simp [rewrittenBody]
  · simp [rewrittenBody, isNext_ne _ (isNext_nextLine cfg)]

/-- Rewriting the new lines changes nothing. -/
theorem newConfigLines_idem (cfg : StoreConfig) (lines : List Bytes) :
    newConfigLines cfg (newConfigLines cfg lines) = newConfigLines cfg lines := by
  have hbodies : (newConfigLines cfg lines).map (rewrittenBody cfg) = newConfigLines cfg lines := by
    conv_rhs => rw [← List.map_id (newConfigLines cfg lines)]
    exact List.map_congr_left rewrittenBody_fixed
  conv_lhs => rw [newConfigLines]
  rw [hbodies, exists_isTables, exists_isNext, if_pos rfl, if_pos rfl, List.append_nil,
    List.append_nil]

/-- The kept lines are those of the old file, in their order. -/
theorem filter_isKept_newConfigLines (cfg : StoreConfig) (lines : List Bytes) :
    (newConfigLines cfg lines).filter isKept = lines.filter isKept := by
  have hbody (line : Bytes) : isKept (rewrittenBody cfg line) = isKept line := by
    rw [isKept, isKept, (rewrittenBody_kind cfg line).1, (rewrittenBody_kind cfg line).2]
  have hsame : ∀ line, isKept line = true → rewrittenBody cfg line = line := by
    intro line hkept
    obtain ⟨htables, hnext⟩ := Bool.and_eq_true_iff.mp hkept
    rw [rewrittenBody, if_neg (by simpa using htables), if_neg (by simpa using hnext)]
  have hbodies : (lines.map (rewrittenBody cfg)).filter isKept = lines.filter isKept := by
    rw [List.filter_map, Function.comp_def]
    simp only [hbody]
    conv_rhs => rw [← List.map_id (lines.filter isKept)]
    exact List.map_congr_left fun line hline => hsame line (List.mem_filter.mp hline).2
  have htables : isKept (tablesLine cfg) = false := by simp [isKept]
  have hnext : isKept (nextLine cfg) = false := by simp [isKept]
  unfold newConfigLines
  rw [List.filter_append, List.filter_append, hbodies]
  split <;> split <;> simp [htables, hnext]

theorem configLines_eq_tokens {text : Bytes} (hnul : 0 ∉ text) :
    configLines text = tokens (ch '\n') text := by
  rw [configLines, takeWhile_noNul hnul]

/-- What the new text is made of, and what is read from it. -/
theorem newConfigText_lines (old : Bytes) (cfg : StoreConfig) :
    0 ∉ newConfigText old cfg ∧ configLines (newConfigText old cfg) =
      newConfigLines cfg (configLines (configText (some old))) := by
  have hlines : ∀ line ∈ newConfigLines cfg (configLines (configText (some old))),
      IsConfigLine line :=
    isConfigLine_newConfigLines cfg fun line hline => isConfigLine_of_mem hline
  obtain ⟨-, hread⟩ := configLines_flatMap (fun l hl => (hlines l hl).1)
    (fun l hl => (hlines l hl).2.1) (fun l hl => (hlines l hl).2.2)
  refine ⟨?_, hread⟩
  intro hmem
  obtain ⟨line, hline, hmem⟩ := List.mem_flatMap.mp hmem
  rcases List.mem_append.mp hmem with hmem | hmem
  · exact (hlines line hline).2.2 hmem
  · revert hmem
    decide

/-- The new text is no empty file. -/
theorem configText_newConfigText (old : Bytes) (cfg : StoreConfig) :
    configText (some (newConfigText old cfg)) = newConfigText old cfg := by
  cases hcases : newConfigText old cfg with
  | nil =>
    have hkey := exists_isTables cfg (configLines (configText (some old)))
    rw [← (newConfigText_lines old cfg).2, hcases] at hkey
    cases hkey
  | cons b rest => rfl

theorem storageLoadConfig_newConfigText {old : Bytes} {cfg : StoreConfig} (hcfg : cfg.InRange)
    (hnew : (newConfigText old cfg).length < 8192) :
    storageLoadConfig (some (newConfigText old cfg)) = cfg := by
  let lines := configLines (configText (some old))
  have hmax := foldl_configLine configLine_maxTables (atoi_tablesLines hcfg.fits lines) ⟨8, 1⟩
  have hnext := foldl_configLine configLine_nextOrderId (atoi_nextLines hcfg.fits lines) ⟨8, 1⟩
  rw [exists_isTables, if_pos rfl] at hmax
  rw [exists_isNext, if_pos rfl] at hnext
  have hloaded : (newConfigLines cfg lines).foldl configLine ⟨8, 1⟩ = cfg := by
    generalize (newConfigLines cfg lines).foldl configLine ⟨8, 1⟩ = loaded at hmax hnext
    cases loaded
    cases hmax
    cases hnext
    rfl
  rw [storageLoadConfig_lines (le_trans hnew.le (by decide)), (newConfigText_lines old cfg).2,
    hloaded, hcfg.configDefaults_eq]

/-- A file of less than 8192 bytes without NUL, whose lines and new text fit the buffers: after a save
it is read back as the config, with its other lines in their order, and another save of the same
config leaves it as it is. -/
theorem saveConfig_loads {old : Bytes} (hnul : 0 ∉ old) (hsize : old.length < 8192)
    (hlines : ∀ line ∈ tokens (ch '\n') old, line.length < 511) {cfg : StoreConfig}
    (hcfg : cfg.InRange) (hnew : (newConfigText old cfg).length < 8192) :
    ∃ text, storageSaveConfig (some old) cfg = some text ∧
      storageLoadConfig (some text) = cfg ∧
      ((tokens (ch '\n') old).filter isKept).Sublist (tokens (ch '\n') text) ∧
      storageSaveConfig (some text) cfg = some text := by
  rw [← configLines_eq_tokens hnul] at hlines ⊢
  obtain ⟨hfree, hread⟩ := newConfigText_lines old cfg
  -- an empty file is rewritten from the default text
  have hold : ((configText (some old)).takeWhile (· ≠ 0)).length < 8192 ∧
      ∀ line ∈ configLines (configText (some old)), line.length < 511 := by
    cases old with
    | nil => exact ⟨by decide +kernel, by decide +kernel⟩
    | cons b rest => exact ⟨lt_of_le_of_lt (List.takeWhile_prefix _).length_le hsize, hlines⟩
  have hkept : ((configLines old).filter isKept).Sublist
      ((configLines (configText (some old))).filter isKept) := by
    cases old with
    | nil => exact List.nil_sublist _
    | cons b rest => exact List.Sublist.refl _
  have htext := configText_newConfigText old cfg
  have hagain : newConfigLines cfg (configLines (configText (some (newConfigText old cfg)))) =
      newConfigLines cfg (configLines (configText (some old))) := by
    rw [htext, hread, newConfigLines_idem]
  refine ⟨newConfigText old cfg, rewriteConfigLines_eq hold.1 hold.2 hcfg.fits hnew,
    storageLoadConfig_newConfigText hcfg hnew, ?_, ?_⟩
  · rw [← configLines_eq_tokens hfree, hread]
    have hnewKept := filter_isKept_newConfigLines cfg (configLines (configText (some old)))
    rw [← hnewKept] at hkept
    exact hkept.trans List.filter_sublist
  · have hsize' : ((configText (some (newConfigText old cfg))).takeWhile (· ≠ 0)).length < 8192 := by
      rw [htext]
      exact lt_of_le_of_lt (List.takeWhile_prefix _).length_le hnew
    have hshort : ∀ line ∈ configLines (configText (some (newConfigText old cfg))),
        line.length < 511 := by
      have htables := length_tablesLine_lt hcfg.fits
      have hnext := length_nextLine_lt hcfg.fits
      rw [htext, hread]
      exact newConfigLines_forall (fun line hline _ _ => hold.2 line hline) (by omega) (by omega)
    have hsaved := rewriteConfigLines_eq hsize' hshort hcfg.fits (by rw [hagain]; exact hnew)
    rw [hagain] at hsaved
    exact hsaved

/-- Both keys twice, with a comment and an unknown line between. -/
theorem saveConfig_loads_doubled :
    let old := lit "next_order_id=3\n# seats\ntables=5\n\ncolor=red\ntables=x\nnext_order_id=7"
    let cfg : StoreConfig := ⟨12, 40⟩
    ∃ text, storageSaveConfig (some old) cfg = some text ∧
      storageLoadConfig (some text) = cfg ∧
      ((tokens (ch '\n') old).filter isKept).Sublist (tokens (ch '\n') text) ∧
      storageSaveConfig (some text) cfg = some text :=
  saveConfig_loads (by decide +kernel) (by decide +kernel) (by decide +kernel)
    ⟨by decide, by decide⟩ (by decide +kernel)

/-! ## Files that do not fit

`snprintf` returns the length its text would have, and the loop copies that many bytes out of `tmp`,
which has 511 of them and the terminator; the two appends add it to `opos`. -/

/-- Each `memcpy` with its length and the number of bytes that are stored in `tmp`, and each value of
`opos`. -/
structure BufferUse where
  copies : List (Nat × Nat)
  offsets : List Nat

/-- The line loop, with the offset and the keys at its end. -/
def loopUse (cfg : StoreConfig) (opos : Nat) (saw : SawKeys) :
    List Bytes → BufferUse × Nat × SawKeys
  | [] => (⟨[], []⟩, opos, saw)
  | line :: lines =>
    let n := (rewrittenLine cfg line).length
    if 8192 ≤ opos + n then (⟨[], []⟩, opos, saw.see line)
    else
      let (use, rest) := loopUse cfg (opos + n) (saw.see line) lines
      (⟨(n, min n 511 + 1) :: use.copies, (opos + n) :: use.offsets⟩, rest)

/-- What the appended line of a key takes up. -/
def appendUse (opos : Nat) (saw : Bool) (line : Bytes) : Nat :=
  if saw then opos else opos + (line.length + 1)

/-- The lines of `localcopy`. -/
def copiedLines (old : Option Bytes) : List Bytes :=
  tokens (ch '\n') (clip 8192 ((configText old).takeWhile (· ≠ 0)))

def rewriteUse (old : Option Bytes) (cfg : StoreConfig) : BufferUse :=
  let (use, opos, saw) := loopUse cfg 0 ⟨false, false⟩ (copiedLines old)
  let withTables := appendUse opos saw.tables (tablesLine cfg)
  let withNext := appendUse withTables saw.next (nextLine cfg)
  ⟨use.copies, use.offsets ++ [withTables, withNext]⟩

/-- No copy is longer than what is stored, no offset is past the end of `outbuf`, and what is written
to the file has been formatted. -/
structure InsideBuffers (old : Option Bytes) (cfg : StoreConfig) : Prop where
  copies : ∀ c ∈ (rewriteUse old cfg).copies, c.1 ≤ c.2
  offsets : ∀ opos ∈ (rewriteUse old cfg).offsets, opos ≤ 8192
  formatted : (rewriteConfigLines old cfg).isSome

/-- What the first `k` lines take up in the new file. -/
def rewrittenSize (cfg : StoreConfig) (lines : List Bytes) (k : Nat) : Nat :=
  ((lines.take k).map fun line => (rewrittenLine cfg line).length).sum

/-- The loop comes to a line with this key. -/
def ComesTo (cfg : StoreConfig) (opos : Nat) (lines : List Bytes) (isKey : Bytes → Bool) : Prop :=
  ∃ k, ∃ h : k < lines.length, opos + rewrittenSize cfg lines k < 8192 ∧ isKey lines[k] = true

instance (cfg : StoreConfig) (opos : Nat) (lines : List Bytes) (isKey : Bytes → Bool) :
    Decidable (ComesTo cfg opos lines isKey) :=
  inferInstanceAs (Decidable (∃ k, ∃ h : k < lines.length,
    opos + rewrittenSize cfg lines k < 8192 ∧ isKey lines[k] = true))

/-- The lines that stay below the size of `outbuf` have at most 512 bytes each, their newline
included, and the keys the loop does not come to fit behind them. -/
structure FitsBuffers (cfg : StoreConfig) (lines : List Bytes) : Prop where
  short : ∀ k, ∀ h : k < lines.length, rewrittenSize cfg lines (k + 1) < 8192 →
    (rewrittenLine cfg lines[k]).length ≤ 512
  room : ∀ k ≤ lines.length, rewrittenSize cfg lines k < 8192 →
    rewrittenSize cfg lines k +
      (if ComesTo cfg 0 lines isTables then 0 else (tablesLine cfg).length + 1) +
      (if ComesTo cfg 0 lines isNext then 0 else (nextLine cfg).length + 1) ≤ 8192

theorem rewrittenSize_zero (cfg : StoreConfig) (lines : List Bytes) :
    rewrittenSize cfg lines 0 = 0 := rfl

theorem rewrittenSize_succ (cfg : StoreConfig) (line : Bytes) (lines : List Bytes) (k : Nat) :
    rewrittenSize cfg (line :: lines) (k + 1) =
      (rewrittenLine cfg line).length + rewrittenSize cfg lines k := by
  simp [rewrittenSize]

/-- A line after the first one is come to if the first one stays below. -/
theorem comesTo_cons (cfg : StoreConfig) {opos : Nat} (hopos : opos < 8192) (line : Bytes)
    (lines : List Bytes) (isKey : Bytes → Bool) :
    ComesTo cfg opos (line :: lines) isKey ↔ isKey line = true ∨
      ComesTo cfg (opos + (rewrittenLine cfg line).length) lines isKey := by
  constructor
  · rintro ⟨k, hk, hbelow, hkey⟩
    cases k with
    | zero => exact .inl hkey
    | succ k =>
      rw [rewrittenSize_succ] at hbelow
      exact .inr ⟨k, Nat.lt_of_succ_lt_succ hk, by omega, hkey⟩
  · rintro (hkey | ⟨k, hk, hbelow, hkey⟩)
    · exact ⟨0, Nat.succ_pos _, by rw [rewrittenSize_zero]; omega, hkey⟩
    · exact ⟨k + 1, Nat.succ_lt_succ hk, by rw [rewrittenSize_succ]; omega, hkey⟩

/-- What the loop does: from its offset, over its lines, to its offset and the keys seen. -/
structure LoopSpec (cfg : StoreConfig) (opos : Nat) (saw : SawKeys) (lines : List Bytes)
    (use : BufferUse) (opos' : Nat) (saw' : SawKeys) : Prop where
  copies : (∀ c ∈ use.copies, c.1 ≤ c.2) ↔ ∀ k, ∀ h : k < lines.length,
    opos + rewrittenSize cfg lines (k + 1) < 8192 → (rewrittenLine cfg lines[k]).length ≤ 512
  offsets : ∀ o ∈ use.offsets, o < 8192
  below : opos' < 8192
  last : ∃ k ≤ lines.length, opos' = opos + rewrittenSize cfg lines k
  most : ∀ k ≤ lines.length, opos + rewrittenSize cfg lines k < 8192 →
    opos + rewrittenSize cfg lines k ≤ opos'
  tables : saw'.tables = true ↔ saw.tables = true ∨ ComesTo cfg opos lines isTables
  next : saw'.next = true ↔ saw.next = true ∨ ComesTo cfg opos lines isNext

theorem see_tables (saw : SawKeys) (line : Bytes) :
    (saw.see line).tables = (saw.tables || isTables line) := by
  have h := foldl_see [line] saw
  simp only [List.foldl_cons, List.foldl_nil, List.any_cons, List.any_nil, Bool.or_false] at h
  rw [h]

theorem see_next (saw : SawKeys) (line : Bytes) :
    (saw.see line).next = (saw.next || isNext line) := by
  have h := foldl_see [line] saw
  simp only [List.foldl_cons, List.foldl_nil, List.any_cons, List.any_nil, Bool.or_false] at h
  rw [h]

theorem LoopSpec.nil (cfg : StoreConfig) {opos : Nat} (hopos : opos < 8192) (saw : SawKeys) :
    LoopSpec cfg opos saw [] ⟨[], []⟩ opos saw := by
  have hnone (isKey : Bytes → Bool) : ¬ ComesTo cfg opos [] isKey := by
    rintro ⟨k, hk, -⟩
    cases hk
  refine ⟨by simp, by simp, hopos, ⟨0, le_rfl, rfl⟩, ?_, by simp [hnone], by simp [hnone]⟩
  intro k hk _
  rw [Nat.le_zero.mp hk]
  rfl

/-- The first line that does not fit stops the loop. -/
theorem LoopSpec.stop {cfg : StoreConfig} {opos : Nat} (hopos : opos < 8192) (saw : SawKeys)
    {line : Bytes} (hstop : 8192 ≤ opos + (rewrittenLine cfg line).length) (lines : List Bytes) :
    LoopSpec cfg opos saw (line :: lines) ⟨[], []⟩ opos (saw.see line) := by
  have hover (k : Nat) : ¬ opos + rewrittenSize cfg (line :: lines) (k + 1) < 8192 := by
    rw [rewrittenSize_succ]
    omega
  have hkey (isKey : Bytes → Bool) :
      ComesTo cfg opos (line :: lines) isKey ↔ isKey line = true := by
    rw [comesTo_cons cfg hopos, or_iff_left]
    rintro ⟨k, -, hbelow, -⟩
    omega
  refine ⟨iff_of_true (by simp) ?_, by simp, hopos, ⟨0, Nat.zero_le _, rfl⟩, ?_, ?_, ?_⟩
  · intro k _ hbelow
    exact absurd hbelow (hover k)
  · intro k _ hbelow
    cases k with
    | zero => rfl
    | succ k => exact absurd hbelow (hover k)
  · rw [hkey, see_tables, Bool.or_eq_true]
  · rw [hkey, see_next, Bool.or_eq_true]

/-- A line that fits is copied before the others. -/
theorem LoopSpec.cons {cfg : StoreConfig} {opos opos' : Nat} (hopos : opos < 8192)
    {saw saw' : SawKeys} {line : Bytes} {lines : List Bytes} {use : BufferUse}
    (hfits : opos + (rewrittenLine cfg line).length < 8192)
    (h : LoopSpec cfg (opos + (rewrittenLine cfg line).length) (saw.see line) lines use opos' saw') :
    LoopSpec cfg opos saw (line :: lines)
      ⟨((rewrittenLine cfg line).length, min (rewrittenLine cfg line).length 511 + 1) :: use.copies,
        (opos + (rewrittenLine cfg line).length) :: use.offsets⟩ opos' saw' := by
  have hsize (k : Nat) : opos + rewrittenSize cfg (line :: lines) (k + 1) =
      opos + (rewrittenLine cfg line).length + rewrittenSize cfg lines k := by
    rw [rewrittenSize_succ, Nat.add_assoc]
  obtain ⟨last, hlast, heq⟩ := h.last
  refine ⟨?_, ?_, h.below, ⟨last + 1, Nat.succ_le_succ hlast, by rw [hsize, heq]⟩, ?_, ?_, ?_⟩
  · rw [List.forall_mem_cons, h.copies]
    constructor
    · rintro ⟨hfirst, hrest⟩ k hk hbelow
      rw [hsize] at hbelow
      cases k with
      | zero =>
        simp only [List.getElem_cons_zero]
        omega
      | succ k => exact hrest k (Nat.lt_of_succ_lt_succ hk) hbelow
    · intro hall
      constructor
      · have hfirst := hall 0 (Nat.succ_pos _) (by rw [hsize, rewrittenSize_zero]; exact hfits)
        simp only [List.getElem_cons_zero] at hfirst
        omega
      · intro k hk hbelow
        exact hall (k + 1) (Nat.succ_lt_succ hk) (by rw [hsize]; exact hbelow)
  · rw [List.forall_mem_cons]
    exact ⟨hfits, h.offsets⟩
  · intro k hk hbelow
    cases k with
    | zero =>
      rw [rewrittenSize_zero, heq]
      omega
    | succ k =>
      rw [hsize] at hbelow ⊢
      exact h.most k (Nat.le_of_succ_le_succ hk) hbelow
  · rw [h.tables, see_tables, comesTo_cons cfg hopos, Bool.or_eq_true, or_assoc]
  · rw [h.next, see_next, comesTo_cons cfg hopos, Bool.or_eq_true, or_assoc]

theorem loopUse_spec (cfg : StoreConfig) {opos : Nat} (hopos : opos < 8192) (saw : SawKeys)
    (lines : List Bytes) :
    LoopSpec cfg opos saw lines (loopUse cfg opos saw lines).1 (loopUse cfg opos saw lines).2.1
      (loopUse cfg opos saw lines).2.2 := by
  induction lines generalizing opos saw with
  | nil => exact .nil cfg hopos saw
  | cons line lines ih =>
    unfold loopUse
    simp only
    split
    · next hstop => exact .stop hopos saw hstop lines
    · next hfits => exact .cons hopos (by omega) (ih (by omega) (saw.see line))

/-- The text of the loop is the formatted bytes, as long as the copies are no longer than those. -/
theorem rewriteLoop_use (cfg : StoreConfig) (out : Bytes) (saw : SawKeys) (lines : List Bytes) :
    (∀ c ∈ (loopUse cfg out.length saw lines).1.copies, c.1 ≤ c.2) →
      ∃ text, rewriteLoop cfg out saw lines = some (text, (loopUse cfg out.length saw lines).2.2) ∧
        text.length = (loopUse cfg out.length saw lines).2.1 := by
  induction lines generalizing out saw with
  | nil => exact fun _ => ⟨out, rfl, rfl⟩
  | cons line lines ih =>
    unfold loopUse rewriteLoop
    simp only
    split
    · exact fun _ => ⟨out, rfl, rfl⟩
    · rw [List.forall_mem_cons]
      rintro ⟨hfirst, hrest⟩
      have hcopied : (((rewrittenLine cfg line).take 511 ++ [0]).take
          (rewrittenLine cfg line).length).length = (rewrittenLine cfg line).length := by
        rw [List.length_take, List.length_append, List.length_take, List.length_singleton]
        exact min_eq_left (by omega)
      have hout : (out ++ ((rewrittenLine cfg line).take 511 ++ [0]).take
          (rewrittenLine cfg line).length).length = out.length + (rewrittenLine cfg line).length := by
        rw [List.length_append, hcopied]
      rw [if_neg (by omega)]
      rw [← hout] at hrest ⊢
      exact ih _ _ hrest

/-- `opos` at the end of the buffer is the last that can be written from. -/
theorem appendAt_of_le {out line : Bytes} (h : out.length + (line.length + 1) ≤ 8192) :
    ∃ text, appendAt out (line ++ [ch '\n']) = some text ∧
      text.length = out.length + (line.length + 1) := by
  have hlen : (line ++ [ch '\n']).length = line.length + 1 := by simp
  unfold appendAt
  rw [hlen]
  split
  · exact ⟨_, rfl, by rw [List.length_append, hlen]⟩
  · rw [if_pos (by omega)]
    exact ⟨_, rfl, by simp⟩

/-- The append of a key, unless a line had it. -/
theorem appendUnless_of_le {saw : Bool} {out line : Bytes} (h : appendUse out.length saw line ≤ 8192) :
    ∃ text, (if saw then some out else appendAt out (line ++ [ch '\n'])) = some text ∧
      text.length = appendUse out.length saw line := by
  cases saw with
  | true => exact ⟨out, rfl, rfl⟩
  | false => exact appendAt_of_le h

theorem le_appendUse (opos : Nat) (saw : Bool) (line : Bytes) : opos ≤ appendUse opos saw line := by
  unfold appendUse
  split <;> omega

theorem appendUse_eq {opos : Nat} {saw : Bool} {P : Prop} [Decidable P] (h : saw = true ↔ P)
    (line : Bytes) : appendUse opos saw line = opos + if P then 0 else line.length + 1 := by
  unfold appendUse
  by_cases hP : P
  · rw [if_pos (h.mpr hP), if_pos hP, Nat.add_zero]
  · rw [if_neg (fun hsaw => hP (h.mp hsaw)), if_neg hP]

/-- The loop, and then the two appends from where it ends. -/
theorem rewriteUse_spec (old : Option Bytes) (cfg : StoreConfig) :
    ∃ use opos saw, LoopSpec cfg 0 ⟨false, false⟩ (copiedLines old) use opos saw ∧
      rewriteUse old cfg = ⟨use.copies, use.offsets ++
        [appendUse opos saw.tables (tablesLine cfg),
          appendUse (appendUse opos saw.tables (tablesLine cfg)) saw.next (nextLine cfg)]⟩ ∧
      ((∀ c ∈ use.copies, c.1 ≤ c.2) → ∃ text,
        rewriteLoop cfg [] ⟨false, false⟩ (copiedLines old) = some (text, saw) ∧
          text.length = opos) :=
  ⟨_, _, _, loopUse_spec cfg (show 0 < 8192 by decide) ⟨false, false⟩ (copiedLines old), rfl,
    rewriteLoop_use cfg [] ⟨false, false⟩ (copiedLines old)⟩

/-- `rewrite_config_lines` stays inside its buffers exactly for the files whose lines fit `tmp` as far
as they fit `outbuf`, with room for the keys that are to be appended. -/
theorem insideBuffers_iff (old : Option Bytes) (cfg : StoreConfig) :
    InsideBuffers old cfg ↔ FitsBuffers cfg (copiedLines old) := by
  obtain ⟨use, opos, saw, hspec, hrewrite, hloop⟩ := rewriteUse_spec old cfg
  have htables : saw.tables = true ↔ ComesTo cfg 0 (copiedLines old) isTables := by
    simpa using hspec.tables
  have hnext : saw.next = true ↔ ComesTo cfg 0 (copiedLines old) isNext := by
    simpa using hspec.next
  have hcopies := hspec.copies
  have hmost := hspec.most
  simp only [Nat.zero_add] at hcopies hmost
  have hmiddle : appendUse opos saw.tables (tablesLine cfg) = _ := appendUse_eq htables _
  have hend : appendUse (appendUse opos saw.tables (tablesLine cfg)) saw.next (nextLine cfg) = _ :=
    appendUse_eq hnext _
  constructor
  · rintro ⟨hcopy, hoffset, -⟩
    rw [hrewrite] at hcopy hoffset
    refine ⟨hcopies.mp hcopy, ?_⟩
    intro k hk hbelow
    have hlast := hoffset _ (List.mem_append_right _ (List.mem_cons_of_mem _ List.mem_cons_self))
    have hle := hmost k hk hbelow
    omega
  · rintro ⟨hshort, hroom⟩
    obtain ⟨k, hk, hlast⟩ := hspec.last
    have hbelow := hspec.below
    have hfinal : appendUse (appendUse opos saw.tables (tablesLine cfg)) saw.next (nextLine cfg) ≤
        8192 := by
      have hle := hroom k hk (by omega)
      omega
    have hfirst := le_trans (le_appendUse _ saw.next (nextLine cfg)) hfinal
    have hcopy := hcopies.mpr hshort
    refine ⟨by rw [hrewrite]; exact hcopy, ?_, ?_⟩
    · rw [hrewrite]
      intro o ho
      rcases List.mem_append.mp ho with ho | ho
      · exact (hspec.offsets o ho).le
      · rcases List.mem_pair.mp ho with rfl | rfl
        · exact hfirst
        · exact hfinal
    · obtain ⟨out, hout, hlen⟩ := hloop hcopy
      rw [← hlen] at hfirst hfinal
      obtain ⟨withTables, hwith, hlen'⟩ := appendUnless_of_le hfirst
      rw [← hlen'] at hfinal
      obtain ⟨text, htext, -⟩ := appendUnless_of_le hfinal
      rw [rewriteConfigLines_of_loop hout hwith htext]
      rfl

/-- An unknown line of 600 bytes. -/
theorem longLine_leavesBuffers : ¬ ∀ (old : Bytes) (cfg : StoreConfig), InsideBuffers (some old) cfg := by
  intro h
  have hinside := h (List.replicate 600 (ch 'x')) ⟨8, 1⟩
  have hshort := hinside.copies (601, 512) (by decide +kernel)
  omega

end TableOrder
