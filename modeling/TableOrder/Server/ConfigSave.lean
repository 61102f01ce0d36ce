import TableOrder.Lib.TempFile
import TableOrder.Server.Steps

/-!
# Two threads that save the config (`rewrite_config_lines`)

A client thread that created an order saves the config before it gives the lock back; the POS thread
saves it without the lock. Both write the same temporary file and rename it. Here a save takes one
step for each thing it does with a file, so that other threads come between, and everything else the
server does is an `Op` as before.

The file on the disk has the counter of the context whenever no save is in progress
(`savedCounter_ahead`), if no order is created between the format and the rename of a save of the POS
thread, and the two saves take turns with the temporary file. Without that the file can fall behind
(`savedCounter_behind`).
-/

namespace TableOrder

open CLib
open TempFile (Disk Owns)

/-! ## The steps -/

/-- Who saves: the client thread that holds the lock, or the POS thread. -/
inductive Saver where
  | client
  | pos
  deriving DecidableEq

/-- What a save does next, with what it has by then. -/
inductive Stage where
  | read
  | format (old : Option Bytes)
  | openTmp (text : Bytes)
  | write (fd : Nat) (text : Bytes)
  | rename

structure Saving where
  world : World
  disk : Disk UInt8
  stage : Saver → Option Stage

def Saving.enter (s : Saving) (who : Saver) (stage : Option Stage) : Saving :=
  { s with stage := Function.update s.stage who stage }

/-- The next file step of a save. Every call succeeds, but for a `rename` without a temporary file. -/
def fileStep (who : Saver) (s : Saving) : Saving :=
  match s.stage who with
  | none => s
  | some .read => s.enter who (some (.format s.disk.read))
  | some (.format old) => s.enter who ((rewriteConfigLines old s.world.ctx.cfg).map .openTmp)
  | some (.openTmp text) =>
    let (fd, disk) := s.disk.openTmp
    { s with disk := disk }.enter who (some (.write fd text))
  | some (.write fd text) => { s with disk := s.disk.write fd text }.enter who (some .rename)
  | some .rename => { s with disk := s.disk.rename.2 }.enter who none

/-- The operation runs under the lock. -/
def Op.locks : Op → Bool
  | .reply _ _ => false
  | .staffTouch => false
  | .staffLog _ => false
  | .syncMaxTables _ => false
  | .saveConfig => false
  | _ => true

inductive SaveAction where
  /-- An operation without its save of the config. -/
  | op (env : Env) (op : Op)
  /-- The POS thread begins a save. -/
  | posSave
  | fileStep (who : Saver)

/-- After an operation that created an order its thread keeps the lock and saves the config. -/
def saveStep : SaveAction → Saving → Saving
  | .op env op, s =>
    if op.locks = true ∧ (s.stage .client).isSome then s
    else
      let w := (op.run .wrap { env with configSaved := false } s.world).2
      if s.world.ctx.orders.items.length < w.ctx.orders.items.length then
        { s with world := w }.enter .client (some .read)
      else { s with world := w }
  | .posSave, s => if (s.stage .pos).isSome then s else s.enter .pos (some .read)
  | .fileStep who, s => fileStep who s

def runSaves (s : Saving) (as : List SaveAction) : Saving := Runs.run saveStep s as

/-- A server that has just started, over this disk. -/
def Saving.start (w : World) : Saving where
  world := w
  disk := Disk.ofFile w.configFile
  stage := fun _ => none

/-! ## A save that is alone

Without a thread between, the five steps are the save of `serverSaveConfig`. A call that fails ends
the save where it is. -/

/-- Which call fails, if one does; a write that fails has taken `n` bytes. -/
inductive SaveResult where
  | succeeds
  | readFails
  | openFails
  | writeFails (n : Nat)
  | renameFails

/-- `rewrite_config_lines` in one go: whether it returned 0, and the disk. -/
def saveConfigFile (r : SaveResult) (disk : Disk UInt8) (cfg : StoreConfig) : Bool × Disk UInt8 :=
  match r, rewriteConfigLines disk.read cfg with
  | .readFails, _ => (false, disk)
  | _, none => (false, disk)
  | .openFails, some _ => (false, disk)
  | .writeFails n, some text =>
    let (fd, disk) := disk.openTmp
    (false, disk.write fd (text.take n))
  | .renameFails, some text =>
    let (fd, disk) := disk.openTmp
    (false, disk.write fd text)
  | .succeeds, some text =>
    let (fd, disk) := disk.openTmp
    (disk.write fd text).rename

/-- The five steps. -/
def saveAlone (who : Saver) (s : Saving) : Saving :=
  fileStep who (fileStep who (fileStep who (fileStep who (fileStep who (s.enter who (some .read))))))

@[simp] theorem stage_enter (s : Saving) (who : Saver) (stage : Option Stage) :
    (s.enter who stage).stage who = stage := Function.update_self _ _ _

theorem fileStep_idle {who : Saver} {s : Saving} (h : s.stage who = none) : fileStep who s = s := by
  unfold fileStep
  rw [h]

/-- The steps of a save with no other thread between are the save as a whole. -/
theorem saveAlone_disk (who : Saver) (s : Saving) :
    (saveAlone who s).disk = (saveConfigFile .succeeds s.disk s.world.ctx.cfg).2 := by
  have hread : fileStep who (s.enter who (some .read)) =
      s.enter who (some (.format s.disk.read)) := by
    simp [fileStep, Saving.enter]
  have hformat (old : Option Bytes) : fileStep who (s.enter who (some (.format old))) =
      s.enter who ((rewriteConfigLines old s.world.ctx.cfg).map .openTmp) := by
    simp [fileStep, Saving.enter]
  unfold saveAlone saveConfigFile
  rw [hread, hformat]
  cases rewriteConfigLines s.disk.read s.world.ctx.cfg with
  | none =>
    rw [Option.map_none, fileStep_idle, fileStep_idle, fileStep_idle]
    · rfl
    all_goals simp [fileStep_idle]
  | some text =>
    have hopen : fileStep who (s.enter who (some (.openTmp text))) =
        { s with disk := s.disk.openTmp.2 }.enter who (some (.write s.disk.openTmp.1 text)) := by
      simp [fileStep, Saving.enter]
    have hwrite (t : Saving) (fd : Nat) : fileStep who (t.enter who (some (.write fd text))) =
        { t with disk := t.disk.write fd text }.enter who (some .rename) := by
      simp [fileStep, Saving.enter]
    have hrename (t : Saving) : fileStep who (t.enter who (some .rename)) =
        { t with disk := t.disk.rename.2 }.enter who none := by
      simp [fileStep, Saving.enter]
    rw [Option.map_some, hopen, hwrite, hrename]
    rfl

/-- A save that fails leaves the file as it was; one that succeeds leaves the new text. -/
theorem read_saveConfigFile (r : SaveResult) (disk : Disk UInt8) (cfg : StoreConfig) :
    (saveConfigFile r disk cfg).2.read =
      match (saveConfigFile r disk cfg).1, rewriteConfigLines disk.read cfg with
      | true, some text => some text
      | _, _ => disk.read := by
  have howns := TempFile.owns_openTmp disk
  unfold saveConfigFile
  cases hrewrite : rewriteConfigLines disk.read cfg with
  | none => cases r <;> rfl
  | some text =>
    cases r with
    | succeeds =>
      obtain ⟨hdone, hread⟩ := (howns.write text).rename
      simp only [hdone]
      exact hread
    | readFails => rfl
    | openFails => rfl
    | writeFails n => exact (howns.read_write _).trans (Disk.read_openTmp disk)
    | renameFails => exact (howns.read_write _).trans (Disk.read_openTmp disk)

/-- `serverSaveConfig` is this save, told whether it succeeded. -/
theorem serverSaveConfig_configFile (r : SaveResult) {disk : Disk UInt8} {w : World}
    (hdisk : w.configFile = disk.read) {env : Env}
    (henv : env.configSaved = (saveConfigFile r disk w.ctx.cfg).1) :
    (serverSaveConfig env w).configFile = (saveConfigFile r disk w.ctx.cfg).2.read := by
  rw [read_saveConfigFile, ← henv, ← hdisk]
  unfold serverSaveConfig storageSaveConfig
  cases env.configSaved with
  | false => rfl
  | true =>
    cases rewriteConfigLines w.configFile w.ctx.cfg with
    | none => rfl
    | some text => rfl

/-! ## Turns -/

def Stage.opensTmp : Stage → Bool
  | .openTmp _ => true
  | _ => false

/-- The stages in which a save has the temporary file open, or has still to rename it. -/
def Stage.holdsTmp : Stage → Bool
  | .write _ _ => true
  | .rename => true
  | _ => false

/-- The stages in which a save goes on with a text that it formatted before. -/
def Stage.hasText : Stage → Bool
  | .read => false
  | .format _ => false
  | _ => true

def Saver.other : Saver → Saver
  | .client => .pos
  | .pos => .client

@[simp] theorem other_other (who : Saver) : who.other.other = who := by
  cases who <;> rfl

theorem ne_other (who : Saver) : who ≠ who.other := by
  cases who <;> simp [Saver.other]

theorem eq_other_of_ne {v who : Saver} (h : v ≠ who) : v = who.other := by
  cases v <;> cases who <;> simp_all [Saver.other]

/-- No order is created while the POS thread has a formatted text, or with the counter at its end, and
a save that is to open the temporary file finds that the other does not hold it. -/
def InTurn : SaveAction → Saving → Prop
  | .op env op, s =>
    s.world.ctx.orders.items.length < (saveStep (.op env op) s).world.ctx.orders.items.length →
      (s.stage .pos).all (!·.hasText) ∧ s.world.ctx.cfg.nextOrderId < 2147483647
  | .posSave, _ => True
  | .fileStep who, s => (s.stage who).any (·.opensTmp) → (s.stage who.other).all (!·.holdsTmp)

instance (a : SaveAction) (s : Saving) : Decidable (InTurn a s) :=
  match a with
  | .op _ _ => inferInstanceAs (Decidable (_ → _ ∧ _))
  | .posSave => isTrue trivial
  | .fileStep _ => inferInstanceAs (Decidable (_ → _))

/-- The arguments are C values. -/
def SaveAction.Fits : SaveAction → Prop
  | .op _ o => ∀ n, o = .syncMaxTables n → FitsInt n
  | _ => True

/-! ## What the file holds -/

/-- A text of the file from which this counter is loaded. -/
structure Carries (counter : Int) (text : Bytes) : Prop where
  fits : ConfigFits (configText (some text))
  counter : (storageLoadConfig (some text)).nextOrderId = counter

theorem rewrite_carries {old : Option Bytes} (h : ConfigFits (configText old)) {cfg : StoreConfig}
    (hcfg : cfg.Fits) (hpos : 1 ≤ cfg.nextOrderId) :
    ∃ text, rewriteConfigLines old cfg = some text ∧ Carries cfg.nextOrderId text := by
  obtain ⟨text, hrewrite, hne, hfits, hload⟩ := rewriteConfigLines_fits h hcfg
  refine ⟨text, hrewrite, ?_, hload hpos⟩
  cases text with
  | nil => exact absurd rfl hne
  | cons b text => exact hfits

/-- What a save has at its stage. -/
def StageOk (counter : Int) (disk : Disk UInt8) : Stage → Prop
  | .read => True
  | .format old => ConfigFits (configText old)
  | .openTmp text => Carries counter text
  | .write fd text => Carries counter text ∧ Owns disk fd []
  | .rename => ∃ fd text, Carries counter text ∧ Owns disk fd text

structure Consistent (s : Saving) : Prop where
  cfg : s.world.ctx.cfg.Fits
  pos : 1 ≤ s.world.ctx.cfg.nextOrderId
  ids : ∀ id ∈ s.world.ctx.orders.items.map (·.orderId), id < s.world.ctx.cfg.nextOrderId
  file : ConfigFits (configText s.disk.read)
  /-- Unless the creator of the last order is still to save it, the file has the counter. -/
  fresh : s.stage .client = none →
    (storageLoadConfig s.disk.read).nextOrderId = s.world.ctx.cfg.nextOrderId
  stage : ∀ who st, s.stage who = some st → StageOk s.world.ctx.cfg.nextOrderId s.disk st
  turns : ∀ who st st', s.stage who = some st → s.stage who.other = some st' →
    st.holdsTmp = true → st'.holdsTmp = false

/-! ## One file step -/

/-- The other save notices nothing, if it holds no temporary file. -/
theorem StageOk.disk {counter : Int} {disk disk' : Disk UInt8} {st : Stage}
    (h : StageOk counter disk st) (hst : st.holdsTmp = false) : StageOk counter disk' st := by
  cases st with
  | write fd text => cases hst
  | rename => cases hst
  | _ => exact h

/-- A save goes to its next stage, and the file stays as it is or gets a good text. -/
theorem Consistent.enter {s : Saving} (h : Consistent s) {who : Saver} (disk : Disk UInt8)
    {next : Option Stage} (hread : disk.read = s.disk.read ∨
      ∃ text, disk.read = some text ∧ Carries s.world.ctx.cfg.nextOrderId text)
    (hclient : who = .client → next = none →
      (storageLoadConfig disk.read).nextOrderId = s.world.ctx.cfg.nextOrderId)
    (hnext : ∀ st, next = some st → StageOk s.world.ctx.cfg.nextOrderId disk st)
    (hother : ∀ st, s.stage who.other = some st → st.holdsTmp = true → disk = s.disk)
    (hturns : ∀ st st', next = some st → s.stage who.other = some st' → st.holdsTmp = true →
      st'.holdsTmp = false) :
    Consistent ({ s with disk := disk }.enter who next) := by
  have hstage (v : Saver) : ({ s with disk := disk }.enter who next).stage v =
      if v = who then next else s.stage v := Function.update_apply _ _ _ _
  constructor
  · exact h.cfg
  · exact h.pos
  · exact h.ids
  · show ConfigFits (configText disk.read)
    rcases hread with heq | ⟨text, heq, htext⟩
    · rw [heq]
      exact h.file
    · rw [heq]
      exact htext.fits
  · intro hnone
    show (storageLoadConfig disk.read).nextOrderId = s.world.ctx.cfg.nextOrderId
    rw [hstage] at hnone
    split at hnone
    · next hwho => exact hclient hwho.symm hnone
    · rcases hread with heq | ⟨text, heq, htext⟩
      · rw [heq]
        exact h.fresh hnone
      · rw [heq]
        exact htext.counter
  · intro v st hst
    show StageOk s.world.ctx.cfg.nextOrderId disk st
    rw [hstage] at hst
    split at hst
    · exact hnext st hst
    · next hv =>
      have hold := h.stage v st hst
      obtain rfl := eq_other_of_ne hv
      by_cases htmp : st.holdsTmp = true
      · rw [hother st hst htmp]
        exact hold
      · exact hold.disk (by simpa using htmp)
  · intro v st st' hst hst' htmp
    rw [hstage] at hst hst'
    by_cases hv : v = who
    · subst hv
      rw [if_pos rfl] at hst
      rw [if_neg (ne_other v).symm] at hst'
      exact hturns st st' hst hst' htmp
    · obtain rfl := eq_other_of_ne hv
      rw [if_neg hv] at hst
      rw [other_other, if_pos rfl] at hst'
      by_contra hholds
      have hnot := hturns st' st hst' hst (by simpa using hholds)
      rw [hnot] at htmp
      cases htmp

theorem consistent_fileStep {who : Saver} {s : Saving} (h : Consistent s)
    (hturn : InTurn (.fileStep who) s) : Consistent (fileStep who s) := by
  unfold fileStep
  cases hst : s.stage who with
  | none => exact h
  | some st =>
    have hok := h.stage who st hst
    -- a save that holds the temporary file has it for itself
    have halone (htmp : st.holdsTmp = true) (disk : Disk UInt8) : ∀ st', s.stage who.other = some st' →
        st'.holdsTmp = true → disk = s.disk := by
      intro st' hst' htmp'
      rw [h.turns who st st' hst hst' htmp] at htmp'
      cases htmp'
    cases st with
    | read =>
      apply h.enter s.disk (Or.inl rfl)
      · intro _ hnone
        cases hnone
      · rintro _ ⟨⟩
        exact h.file
      · exact fun _ _ _ => rfl
      · rintro _ _ ⟨⟩ _ htmp
        cases htmp
    | format old =>
      obtain ⟨text, hrewrite, hcarries⟩ := rewrite_carries hok h.cfg h.pos
      simp only [hrewrite, Option.map_some]
      apply h.enter s.disk (Or.inl rfl)
      · intro _ hnone
        cases hnone
      · rintro _ ⟨⟩
        exact hcarries
      · exact fun _ _ _ => rfl
      · rintro _ _ ⟨⟩ _ htmp
        cases htmp
    | openTmp text =>
      have hfree := hturn (by rw [hst]; rfl)
      have hnot : ∀ st', s.stage who.other = some st' → st'.holdsTmp = false := by
        intro st' hst'
        rw [hst'] at hfree
        simpa using hfree
      apply h.enter _ (Or.inl (Disk.read_openTmp _))
      · intro _ hnone
        cases hnone
      · rintro _ ⟨⟩
        exact ⟨hok, TempFile.owns_openTmp _⟩
      · intro st' hst' htmp'
        rw [hnot st' hst'] at htmp'
        cases htmp'
      · exact fun _ st' _ hst' _ => hnot st' hst'
    | write fd text =>
      obtain ⟨hcarries, howns⟩ := hok
      apply h.enter _ (Or.inl (howns.read_write text))
      · intro _ hnone
        cases hnone
      · rintro _ ⟨⟩
        exact ⟨fd, text, hcarries, howns.write text⟩
      · exact halone rfl _
      · exact fun _ st' _ hst' _ => h.turns who _ st' hst hst' rfl
    | rename =>
      obtain ⟨fd, text, hcarries, howns⟩ := hok
      have hread := howns.rename.2
      apply h.enter _ (Or.inr ⟨text, hread, hcarries⟩)
      · intro _ _
        rw [hread]
        exact hcarries.counter
      · rintro _ ⟨⟩
      · exact halone rfl _
      · rintro _ _ ⟨⟩

/-! ## One operation -/

/-- Only the layout of the POS sets the table count. -/
theorem Op.run_maxTables (S : IntSem) (env : Env) (w : World) (op : Op) :
    (op.run S env w).2.ctx.cfg.maxTables = w.ctx.cfg.maxTables ∨
      ∃ n, op = .syncMaxTables n ∧ (op.run S env w).2.ctx.cfg.maxTables = n := by
  cases hop : op.onOrders with
  | true =>
    left
    rcases op.run_onOrders S hop env w with hsame | ⟨o, hc⟩ | ⟨i, o, st, hm⟩
    · rw [hsame]
    · rw [hc.ctx]
    · rw [hm.ctx]
  | false =>
    cases op with
    | syncMaxTables n => exact .inr ⟨n, rfl, rfl⟩
    | staffLog tbl => simp [Op.run]
    | saveConfig => simp [Op.run]
    | enter fd kind tableId => simp [Op.run]
    | leave fd => simp [Op.run]
    | reply fd r => exact .inl rfl
    | staffCall tbl => exact .inl rfl
    | staffTouch => exact .inl rfl
    | staffBroadcast tbl => exact .inl rfl
    | staffClear tbl => exact .inl rfl
    | changeMenu menu => exact .inl rfl
    | menuSync => exact .inl rfl
    | _ => cases hop

/-- An operation without its save: the orders and the counter stay, or one order is appended and the
counter goes on. -/
theorem Effect.orderIds {env : Env} {op : Op} {w w' : World} {failed : Bool}
    (h : Effect .wrap env op w w' failed) :
    (w'.ctx.orders.items.map (·.orderId) = w.ctx.orders.items.map (·.orderId) ∧
      w'.ctx.cfg.nextOrderId = w.ctx.cfg.nextOrderId) ∨
    w'.ctx.orders.items.map (·.orderId) =
        w.ctx.orders.items.map (·.orderId) ++ [w.ctx.cfg.nextOrderId] ∧
      w'.ctx.cfg.nextOrderId = IntSem.wrap.norm (w.ctx.cfg.nextOrderId + 1) := by
  have hmoved {i : Nat} {o : Order} {st : OrderStatus} (hm : Moved .wrap w w' i o st) :
      w'.ctx.orders.items.map (·.orderId) = w.ctx.orders.items.map (·.orderId) ∧
        w'.ctx.cfg.nextOrderId = w.ctx.cfg.nextOrderId := by
    refine ⟨?_, by rw [hm.ctx]⟩
    rw [hm.orders, List.map_set, withStatus_orderId]
    obtain ⟨hlt, rfl⟩ := List.getElem?_eq_some_iff.mp hm.found
    rw [← List.getElem_map (fun o : Order => o.orderId) (h := by simpa using hlt), List.set_getElem_self]
  cases h with
  | quiet failed lines horders _ hnext => exact .inl ⟨by rw [horders], hnext⟩
  | created o _ hc =>
    refine .inr ⟨?_, by rw [hc.ctx]⟩
    rw [hc.orders, List.map_append, List.map_singleton, hc.id]
  | cooked i o st _ _ hm => exact .inl (hmoved hm)
  | cancelled i o _ _ _ hm => exact .inl (hmoved hm)
  | paid i o _ _ _ hm => exact .inl (hmoved hm)
  | entered fd kind tableId heq =>
    subst heq
    simp
  | left fd heq =>
    subst heq
    simp

/-- A save that has no text yet does not depend on the counter. -/
theorem StageOk.counter {counter counter' : Int} {disk : Disk UInt8} {st : Stage}
    (h : StageOk counter disk st) (hst : st.hasText = false) : StageOk counter' disk st := by
  cases st with
  | read => trivial
  | format old => exact h
  | _ => cases hst

/-- An operation that creates no order. -/
theorem Consistent.sameIds {s : Saving} (h : Consistent s) {w : World}
    (htables : FitsInt w.ctx.cfg.maxTables)
    (hids : w.ctx.orders.items.map (·.orderId) = s.world.ctx.orders.items.map (·.orderId))
    (hcounter : w.ctx.cfg.nextOrderId = s.world.ctx.cfg.nextOrderId) :
    Consistent { s with world := w } := by
  constructor
  · exact ⟨htables, by rw [hcounter]; exact h.cfg.nextOrderId⟩
  · show 1 ≤ w.ctx.cfg.nextOrderId
    rw [hcounter]
    exact h.pos
  · show ∀ id ∈ w.ctx.orders.items.map (·.orderId), id < w.ctx.cfg.nextOrderId
    rw [hids, hcounter]
    exact h.ids
  · exact h.file
  · show s.stage .client = none → _ = w.ctx.cfg.nextOrderId
    rw [hcounter]
    exact h.fresh
  · show ∀ who st, s.stage who = some st → StageOk w.ctx.cfg.nextOrderId s.disk st
    rw [hcounter]
    exact h.stage
  · exact h.turns

/-- An operation that creates one: the POS thread has no text with the old counter. -/
theorem Consistent.newId {s : Saving} (h : Consistent s) {w : World}
    (htables : FitsInt w.ctx.cfg.maxTables)
    (hids : w.ctx.orders.items.map (·.orderId) =
      s.world.ctx.orders.items.map (·.orderId) ++ [s.world.ctx.cfg.nextOrderId])
    (hcounter : w.ctx.cfg.nextOrderId = s.world.ctx.cfg.nextOrderId + 1)
    (hlast : FitsInt (s.world.ctx.cfg.nextOrderId + 1)) (hpos : (s.stage .pos).all (!·.hasText)) :
    Consistent ({ s with world := w }.enter .client (some .read)) := by
  constructor
  · exact ⟨htables, (congrArg FitsInt hcounter).mpr hlast⟩
  · show 1 ≤ w.ctx.cfg.nextOrderId
    have hold := h.pos
    omega
  · show ∀ id ∈ w.ctx.orders.items.map (·.orderId), id < w.ctx.cfg.nextOrderId
    rw [hids]
    intro id hid
    rcases List.mem_append.mp hid with hid | hid
    · have hold := h.ids id hid
      omega
    · rw [List.mem_singleton.mp hid]
      omega
  · exact h.file
  · intro hclient
    simp [Saving.enter] at hclient
  · intro who st hst
    show StageOk w.ctx.cfg.nextOrderId s.disk st
    cases who with
    | client =>
      obtain rfl : Stage.read = st := by simpa [Saving.enter] using hst
      trivial
    | pos =>
      have hold : s.stage .pos = some st := by simpa [Saving.enter] using hst
      apply (h.stage .pos st hold).counter
      rw [hold] at hpos
      simpa using hpos
  · intro who st st' hst hst' htmp
    cases who with
    | client =>
      obtain rfl : Stage.read = st := by simpa [Saving.enter] using hst
      cases htmp
    | pos =>
      obtain rfl : Stage.read = st' := by simpa [Saving.enter, Saver.other] using hst'
      rfl

/-- An order more has an id more. -/
theorem length_lt_of_newId {orders orders' : List Order} {id : Int}
    (h : orders'.map (·.orderId) = orders.map (·.orderId) ++ [id]) : orders.length < orders'.length := by
  have hlen := congrArg List.length h
  rw [List.length_map, List.length_append, List.length_map, List.length_singleton] at hlen
  omega

/-- The world after an operation, whether a save begins or not. -/
theorem saveStep_op_world (env : Env) (op : Op) (s : Saving) :
    (saveStep (.op env op) s).world = if op.locks = true ∧ (s.stage .client).isSome then s.world
      else (op.run .wrap { env with configSaved := false } s.world).2 := by
  simp only [saveStep]
  split
  · rfl
  · split <;> rfl

theorem consistent_op {env : Env} {op : Op} {s : Saving} (h : Consistent s)
    (hturn : InTurn (.op env op) s) (hfits : (SaveAction.op env op).Fits) :
    Consistent (saveStep (.op env op) s) := by
  rw [InTurn, saveStep_op_world] at hturn
  simp only [saveStep]
  split
  · exact h
  · next hfree =>
    rw [if_neg hfree] at hturn
    have htables := op.run_maxTables .wrap { env with configSaved := false } s.world
    have hids := (op.effect .wrap { env with configSaved := false } s.world).orderIds
    generalize (op.run .wrap { env with configSaved := false } s.world).2 = w at htables hids hturn ⊢
    have htables : FitsInt w.ctx.cfg.maxTables := by
      rcases htables with hsame | ⟨n, rfl, hset⟩
      · rw [hsame]
        exact h.cfg.maxTables
      · rw [hset]
        exact hfits n rfl
    rcases hids with ⟨hsame, hcounter⟩ | ⟨hmore, hcounter⟩
    · have hlen := congrArg List.length hsame
      rw [List.length_map, List.length_map] at hlen
      rw [if_neg (by omega)]
      exact h.sameIds htables hsame hcounter
    · have hlen := length_lt_of_newId hmore
      obtain ⟨hpos, hlast⟩ := hturn hlen
      rw [if_pos hlen]
      have hfits : FitsInt (s.world.ctx.cfg.nextOrderId + 1) := by
        have hold := h.pos
        unfold FitsInt
        omega
      rw [IntSem.wrap.norm_of_fits _ hfits] at hcounter
      exact h.newId htables hmore hcounter hfits hpos

theorem consistent_step {a : SaveAction} {s : Saving} (h : Consistent s) (hturn : InTurn a s)
    (hfits : a.Fits) : Consistent (saveStep a s) := by
  cases a with
  | op env op => exact consistent_op h hturn hfits
  | fileStep who => exact consistent_fileStep h hturn
  | posSave =>
    simp only [saveStep]
    split
    · exact h
    · apply h.enter s.disk (Or.inl rfl)
      · intro _ hnone
        cases hnone
      · rintro _ ⟨⟩
        trivial
      · exact fun _ _ _ => rfl
      · rintro _ _ ⟨⟩ _ htmp
        cases htmp

/-! ## Runs -/

theorem consistent_start {w : World} (hstart : Started w) (hfile : ConfigFits (configText w.configFile)) :
    Consistent (Saving.start w) := by
  have hread : (Saving.start w).disk.read = w.configFile := Disk.read_ofFile _
  have horders := started_orders hstart
  obtain ⟨boot, hboot⟩ := hstart
  have hload : w.ctx.cfg = storageLoadConfig w.configFile := by
    unfold serverLoadPersistent at hboot
    simp only at hboot
    split at hboot
    · cases hboot
    · obtain rfl := (Prod.mk.inj hboot).2
      rfl
  have hrange := storageLoadConfig_range w.configFile
  rw [← hload] at hrange
  obtain ⟨hmin, hmax, hpos, hnext⟩ := hrange
  constructor
  · refine ⟨?_, hnext⟩
    have hT : (MAX_TABLES : Int) = 64 := rfl
    show FitsInt w.ctx.cfg.maxTables
    unfold FitsInt
    omega
  · exact hpos
  · intro id hid
    rw [show (Saving.start w).world.ctx.orders.items = [] from horders] at hid
    cases hid
  · rw [hread]
    exact hfile
  · intro _
    rw [hread, ← hload]
    rfl
  · rintro _ _ ⟨⟩
  · rintro _ _ _ ⟨⟩

/-- When no save is in progress, the file has a counter beyond every order. -/
theorem savedCounter_ahead {w : World} (hstart : Started w)
    (hfile : ConfigFits (configText w.configFile)) {as : List SaveAction}
    (hargs : ∀ a ∈ as, a.Fits) (hturns : Runs.AllSteps saveStep InTurn (Saving.start w) as)
    (hidle : ∀ who, (runSaves (Saving.start w) as).stage who = none) :
    ∀ o ∈ (runSaves (Saving.start w) as).world.ctx.orders.items,
      o.orderId < (storageLoadConfig (runSaves (Saving.start w) as).disk.read).nextOrderId := by
  have h : Consistent (runSaves (Saving.start w) as) :=
    Runs.AllSteps.invariant (P := InTurn) (Q := SaveAction.Fits) (I := Consistent)
      (fun _ _ hfits hturn hs => consistent_step hs hturn hfits) (consistent_start hstart hfile) hargs
      hturns
  intro o ho
  rw [h.fresh (hidle .client)]
  exact h.ids _ (List.mem_map_of_mem ho)

/-- The POS thread formats its text, a client creates order 1 and saves the next id, and then the POS
thread writes its text. -/
def lateSave : List SaveAction :=
  [.posSave, .fileStep .pos, .fileStep .pos,
    .op (Env.fair 5) (.orderCreate (lit "ORDER_CREATE|table=1|items=1:1") 1),
    .fileStep .client, .fileStep .client, .fileStep .client, .fileStep .client, .fileStep .client,
    .fileStep .pos, .fileStep .pos, .fileStep .pos]

/-- The same steps, with the POS thread done before the order is created. -/
def earlySave : List SaveAction :=
  [.posSave, .fileStep .pos, .fileStep .pos, .fileStep .pos, .fileStep .pos, .fileStep .pos,
    .op (Env.fair 5) (.orderCreate (lit "ORDER_CREATE|table=1|items=1:1") 1),
    .fileStep .client, .fileStep .client, .fileStep .client, .fileStep .client, .fileStep .client]

/-- The files of a server with one dish. -/
def smallFiles : World :=
  World.boot (some (lit "next_order_id=1\n")) (some (lit "id,name,price\n1,Tea,900,0\n"))

def smallServer : World := (serverLoadPersistent smallFiles).2

theorem smallServer_started : Started smallServer := ⟨smallFiles, rfl⟩

theorem smallServer_config : ConfigFits (configText smallServer.configFile) :=
  ⟨by decide +kernel, by decide +kernel, by decide +kernel⟩

theorem idle_of {s : Saving} (h : (s.stage .client).isNone ∧ (s.stage .pos).isNone) :
    ∀ who, s.stage who = none := by
  intro who
  cases who with
  | client => exact Option.isNone_iff_eq_none.mp h.1
  | pos => exact Option.isNone_iff_eq_none.mp h.2

theorem savedCounter_ahead_earlySave :
    ∃ o ∈ (runSaves (Saving.start smallServer) earlySave).world.ctx.orders.items, o.orderId <
      (storageLoadConfig (runSaves (Saving.start smallServer) earlySave).disk.read).nextOrderId := by
  have hargs : ∀ a ∈ earlySave, a.Fits := by
    intro a ha
    cases a with
    | op env op =>
      rintro n rfl
      simp [earlySave] at ha
    | _ => trivial
  have hturns : Runs.AllSteps saveStep InTurn (Saving.start smallServer) earlySave := by
    decide +kernel
  have hidle := idle_of (s := runSaves (Saving.start smallServer) earlySave) (by decide +kernel)
  have hsaved := savedCounter_ahead smallServer_started smallServer_config hargs hturns hidle
  have hcreated : (runSaves (Saving.start smallServer) earlySave).world.ctx.orders.items ≠ [] := by
    decide +kernel
  obtain ⟨o, ho⟩ := List.exists_mem_of_ne_nil _ hcreated
  exact ⟨o, ho, hsaved o ho⟩

theorem savedCounter_behind :
    ¬ ∀ w, Started w → ConfigFits (configText w.configFile) → ∀ as : List SaveAction,
      (∀ a ∈ as, a.Fits) → (∀ who, (runSaves (Saving.start w) as).stage who = none) →
      ∀ o ∈ (runSaves (Saving.start w) as).world.ctx.orders.items,
        o.orderId < (storageLoadConfig (runSaves (Saving.start w) as).disk.read).nextOrderId := by
  intro h
  have hargs : ∀ a ∈ lateSave, a.Fits := by
    intro a ha
    cases a with
    | op env op =>
      rintro n rfl
      simp [lateSave] at ha
    | _ => trivial
  have hidle := idle_of (s := runSaves (Saving.start smallServer) lateSave) (by decide +kernel)
  have hbehind : ∃ o ∈ (runSaves (Saving.start smallServer) lateSave).world.ctx.orders.items,
      (storageLoadConfig (runSaves (Saving.start smallServer) lateSave).disk.read).nextOrderId ≤
        o.orderId := by
    decide +kernel
  obtain ⟨o, ho, hle⟩ := hbehind
  have hlt := h smallServer smallServer_started smallServer_config lateSave hargs hidle o ho
  omega

end TableOrder
