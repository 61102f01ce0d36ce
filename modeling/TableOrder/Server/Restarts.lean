import TableOrder.Server.Durability

/-!
# Order ids over the lives of the server

The server forgets its orders when it ends, but the logs keep their ids, so that an id must never be
issued twice. The counter is in the config file: a client thread saves it after every order, and the
next process starts from there. A `Generation` is one life of the process, which may end at any point at
which no order is still to be saved, by a shutdown or by a crash. Over any number of them the ids only
go up (`ids_never_reissued`).
-/

namespace TableOrder

open CLib

/-- The menu file a process finds, what its threads do, and how the save of a failed start ends. -/
structure Generation where
  menuFile : Option Bytes
  env : Env
  actions : List SaveAction

namespace Generation

/-- The process at its end. A start that fails ends it at once. -/
def saving (g : Generation) (file : Option Bytes) : Saving :=
  match startUp g.env (World.boot file g.menuFile) with
  | (.error _, w) => Saving.start w
  | (.ok (), w) => runSaves (Saving.start w) g.actions

def issued (g : Generation) (file : Option Bytes) : List Int :=
  (g.saving file).world.ctx.orders.items.map (·.orderId)

/-- The arguments are C values, nobody creates an order or opens the temporary file out of turn, and the
process does not end before the last order is saved. -/
structure Orderly (g : Generation) (file : Option Bytes) : Prop where
  fits : ∀ a ∈ g.actions, a.Fits
  turns : ∀ w, startUp g.env (World.boot file g.menuFile) = (.ok (), w) →
    Runs.AllSteps saveStep InTurn (Saving.start w) g.actions
  saved : (g.saving file).stage .client = none

end Generation

/-- The ids that the processes issue, one after the other, each over the config file of the last. -/
def issuedIds : Option Bytes → List Generation → List Int
  | _, [] => []
  | file, g :: gs => g.issued file ++ issuedIds (g.saving file).disk.read gs

def AllOrderly : Option Bytes → List Generation → Prop
  | _, [] => True
  | file, g :: gs => g.Orderly file ∧ AllOrderly (g.saving file).disk.read gs

/-- The config file a process finds: what it loads, or the defaults it creates first. -/
def foundFile (file : Option Bytes) : Option Bytes := some (file.getD defaultConfigFile)

theorem defaultConfig_fits : ConfigFits (configText (foundFile none)) :=
  ⟨by decide +kernel, by decide +kernel, by decide +kernel⟩

/-! ## One life -/

/-- The ids go up from `n` and stay below the counter. -/
structure Rising (n : Int) (s : Saving) : Prop where
  consistent : Consistent s
  counter : n ≤ s.world.ctx.cfg.nextOrderId
  above : ∀ id ∈ s.world.ctx.orders.items.map (·.orderId), n ≤ id
  sorted : (s.world.ctx.orders.items.map (·.orderId)).Pairwise (· < ·)

/-- A step that leaves the orders and the counter. -/
theorem Rising.same {n : Int} {s s' : Saving} (h : Rising n s) (hs' : Consistent s')
    (hids : s'.world.ctx.orders.items.map (·.orderId) = s.world.ctx.orders.items.map (·.orderId))
    (hcounter : s'.world.ctx.cfg.nextOrderId = s.world.ctx.cfg.nextOrderId) : Rising n s' where
  consistent := hs'
  counter := by
    rw [hcounter]
    exact h.counter
  above := by
    rw [hids]
    exact h.above
  sorted := by
    rw [hids]
    exact h.sorted

theorem fileStep_world (who : Saver) (s : Saving) : (fileStep who s).world = s.world := by
  unfold fileStep
  split <;> rfl

theorem rising_step {n : Int} {a : SaveAction} {s : Saving} (hfits : a.Fits) (hturn : InTurn a s)
    (h : Rising n s) : Rising n (saveStep a s) := by
  have hnext := consistent_step h.consistent hturn hfits
  cases a with
  | posSave =>
    have hworld : (saveStep .posSave s).world = s.world := by
      simp only [saveStep]
      split <;> rfl
    exact h.same hnext (by rw [hworld]) (by rw [hworld])
  | fileStep who =>
    have hworld : (saveStep (.fileStep who) s).world = s.world := fileStep_world who s
    exact h.same hnext (by rw [hworld]) (by rw [hworld])
  | op env op =>
    have hworld := saveStep_op_world env op s
    split at hworld
    · exact h.same hnext (by rw [hworld]) (by rw [hworld])
    · have hids := (op.effect .wrap { env with configSaved := false } s.world).orderIds
      rw [← hworld] at hids
      rcases hids with ⟨hids, hcounter⟩ | ⟨hids, hcounter⟩
      · exact h.same hnext hids hcounter
      · -- the new id is the counter, which is beyond all the others and does not wrap
        obtain ⟨-, hlast⟩ := hturn (length_lt_of_newId hids)
        have hpos := h.consistent.pos
        have hfit : FitsInt (s.world.ctx.cfg.nextOrderId + 1) := by
          unfold FitsInt
          omega
        rw [IntSem.wrap.norm_of_fits _ hfit] at hcounter
        refine ⟨hnext, ?_, ?_, ?_⟩
        · have hold := h.counter
          omega
        · rw [hids]
          intro id hid
          rcases List.mem_append.mp hid with hid | hid
          · exact h.above id hid
          · rw [List.mem_singleton.mp hid]
            exact h.counter
        · rw [hids, List.pairwise_append]
          refine ⟨h.sorted, List.pairwise_singleton _ _, ?_⟩
          intro id hid next hnext
          rw [List.mem_singleton.mp hnext]
          exact h.consistent.ids id hid

/-- What a process leaves behind: ids that go up from the counter it found, and a file with a counter
beyond them. -/
structure Leaves (file : Option Bytes) (ids : List Int) (file' : Option Bytes) : Prop where
  fits : ConfigFits (configText (foundFile file'))
  counter : (storageLoadConfig file).nextOrderId ≤ (storageLoadConfig file').nextOrderId
  above : ∀ id ∈ ids, (storageLoadConfig file).nextOrderId ≤ id
  below : ∀ id ∈ ids, id < (storageLoadConfig file').nextOrderId
  sorted : ids.Pairwise (· < ·)

/-- A process that starts and ends when every order is saved. -/
theorem leaves_of_start {file menuFile : Option Bytes} {w : World}
    (hload : serverLoadPersistent (World.boot file menuFile) = (.ok (), w))
    (hfile : ConfigFits (configText (foundFile file))) {as : List SaveAction}
    (hfits : ∀ a ∈ as, a.Fits) (hturns : Runs.AllSteps saveStep InTurn (Saving.start w) as)
    (hsaved : (runSaves (Saving.start w) as).stage .client = none) :
    Leaves file ((runSaves (Saving.start w) as).world.ctx.orders.items.map (·.orderId))
      (runSaves (Saving.start w) as).disk.read := by
  have hstart : Started w := ⟨_, hload⟩
  have hw : w.configFile = foundFile file ∧ w.ctx.cfg = storageLoadConfig file := by
    unfold serverLoadPersistent at hload
    simp only at hload
    split at hload
    · cases hload
    · obtain rfl := (Prod.mk.inj hload).2
      exact ⟨rfl, rfl⟩
  have hempty := started_orders hstart
  have hinit : Rising (storageLoadConfig file).nextOrderId (Saving.start w) := by
    refine ⟨consistent_start hstart (by rw [hw.1]; exact hfile), ?_, ?_, ?_⟩
    · show _ ≤ w.ctx.cfg.nextOrderId
      rw [hw.2]
    · show ∀ id ∈ w.ctx.orders.items.map (·.orderId), _
      rw [hempty]
      simp
    · show (w.ctx.orders.items.map (·.orderId)).Pairwise (· < ·)
      rw [hempty]
      exact .nil
  have hend : Rising (storageLoadConfig file).nextOrderId (runSaves (Saving.start w) as) :=
    Runs.AllSteps.invariant (P := InTurn) (Q := SaveAction.Fits)
      (fun _ _ hf ht hs => rising_step hf ht hs) hinit hfits hturns
  have hcounter := hend.consistent.fresh hsaved
  refine ⟨?_, ?_, hend.above, ?_, hend.sorted⟩
  · have hok := hend.consistent.file
    cases hread : (runSaves (Saving.start w) as).disk.read with
    | none => exact defaultConfig_fits
    | some text =>
      rw [hread] at hok
      exact hok
  · rw [hcounter]
    exact hend.counter
  · rw [hcounter]
    exact hend.consistent.ids

/-- A save leaves a file that fits. -/
theorem fits_serverSaveConfig (env : Env) {w : World} (hfits : ConfigFits (configText w.configFile))
    (hcfg : w.ctx.cfg.Fits) (hpos : 1 ≤ w.ctx.cfg.nextOrderId) :
    ConfigFits (configText (serverSaveConfig env w).configFile) := by
  unfold serverSaveConfig
  split
  · next text _ htext =>
    obtain ⟨text', hrewrite, hcarries⟩ := rewrite_carries hfits hcfg hpos
    obtain rfl : text' = text := Option.some.inj (hrewrite.symm.trans htext)
    exact hcarries.fits
  · exact hfits

/-- A start that fails, with the save of the shutdown. -/
theorem leaves_of_failedStart {file menuFile : Option Bytes} {env : Env} {e : Bytes} {w : World}
    (hstart : startUp env (World.boot file menuFile) = (.error e, w))
    (hfile : ConfigFits (configText (foundFile file))) :
    Leaves file (w.ctx.orders.items.map (·.orderId)) w.configFile := by
  have hfails : failed (startUp env (World.boot file menuFile)).1 = true := by
    rw [hstart]
    rfl
  have hcounter := failedStart_keepsCounter hfails hfile
  obtain ⟨loaded, hshut, -, hcfg, hfound, -⟩ := startUp_fails hfails
  rw [hstart] at hcounter hshut
  have hw : w = serverShutdown env loaded := hshut
  have hempty : w.ctx.orders.items = [] := by
    unfold startUp serverLoadPersistent at hstart
    simp only at hstart
    split at hstart
    · next hload =>
      split at hload
      · obtain rfl := (Prod.mk.inj hstart).2
        obtain rfl := (Prod.mk.inj hload).2
        unfold serverShutdown
        split <;> simp [World.boot, serverInit, Arr.empty]
      · cases hload
    · cases hstart
  -- the shutdown saves what was loaded
  let closed : World := { loaded with ctx := { loaded.ctx with
    shuttingDown := true
    clients := loaded.ctx.clients.closeAll } }
  have hsaved : w.configFile = (serverSaveConfig env closed).configFile := by
    rw [hw]
    unfold serverShutdown
    simp only
    split <;> rfl
  have hclosed : closed.ctx.cfg = storageLoadConfig file := hcfg
  have hfits : ConfigFits (configText w.configFile) := by
    obtain ⟨hmin, hmax, hpos, hnext⟩ := storageLoadConfig_range file
    have hT : (MAX_TABLES : Int) = 64 := rfl
    rw [hsaved]
    apply fits_serverSaveConfig
    · rw [show closed.configFile = foundFile file from hfound]
      exact hfile
    · rw [hclosed]
      exact ⟨⟨by omega, by omega⟩, hnext⟩
    · rw [hclosed]
      exact hpos
  rw [hempty]
  refine ⟨?_, le_of_eq hcounter.symm, by simp, by simp, .nil⟩
  cases hread : w.configFile with
  | none => exact defaultConfig_fits
  | some text =>
    rw [hread] at hfits
    exact hfits

theorem saving_of_failed {g : Generation} {file : Option Bytes} {e : Bytes} {w : World}
    (h : startUp g.env (World.boot file g.menuFile) = (.error e, w)) :
    g.saving file = Saving.start w := by
  unfold Generation.saving
  rw [h]

theorem saving_of_started {g : Generation} {file : Option Bytes} {w : World}
    (h : startUp g.env (World.boot file g.menuFile) = (.ok (), w)) :
    g.saving file = runSaves (Saving.start w) g.actions := by
  unfold Generation.saving
  rw [h]

theorem Generation.Orderly.leaves {g : Generation} {file : Option Bytes} (h : g.Orderly file)
    (hfile : ConfigFits (configText (foundFile file))) :
    Leaves file (g.issued file) (g.saving file).disk.read := by
  have hsaved := h.saved
  unfold Generation.issued
  rcases hstart : startUp g.env (World.boot file g.menuFile) with ⟨e | ⟨⟨⟩⟩, w⟩
  · rw [saving_of_failed hstart]
    rw [show (Saving.start w).disk.read = w.configFile from TempFile.Disk.read_ofFile _]
    exact leaves_of_failedStart hstart hfile
  · have hload : serverLoadPersistent (World.boot file g.menuFile) = (.ok (), w) := by
      unfold startUp at hstart
      split at hstart
      · cases hstart
      · next hload =>
        obtain rfl := (Prod.mk.inj hstart).2
        exact hload
    rw [saving_of_started hstart] at hsaved ⊢
    exact leaves_of_start hload hfile h.fits (h.turns w hstart) hsaved

/-! ## Many lives -/

theorem issuedIds_rising {file : Option Bytes} (hfile : ConfigFits (configText (foundFile file)))
    {gs : List Generation} (hgs : AllOrderly file gs) :
    (issuedIds file gs).Pairwise (· < ·) ∧
      ∀ id ∈ issuedIds file gs, (storageLoadConfig file).nextOrderId ≤ id := by
  induction gs generalizing file with
  | nil => exact ⟨.nil, by simp [issuedIds]⟩
  | cons g gs ih =>
    obtain ⟨hg, hrest⟩ := hgs
    have hleaves := hg.leaves hfile
    obtain ⟨hsorted, habove⟩ := ih hleaves.fits hrest
    constructor
    · rw [issuedIds, List.pairwise_append]
      refine ⟨hleaves.sorted, hsorted, ?_⟩
      intro id hid later hlater
      have hbelow := hleaves.below id hid
      have hafter := habove later hlater
      omega
    · intro id hid
      rcases List.mem_append.mp hid with hid | hid
      · exact hleaves.above id hid
      · have hafter := habove id hid
        have hcounter := hleaves.counter
        omega

/-- Over any number of lives of the server, each ended by a shutdown or a crash, no order id is ever
issued twice: the ids only go up. -/
theorem ids_never_reissued {file : Option Bytes} (hfile : ConfigFits (configText (foundFile file)))
    {gs : List Generation} (hgs : AllOrderly file gs) : (issuedIds file gs).Pairwise (· < ·) :=
  (issuedIds_rising hfile hgs).1

/-- An order, and its save. -/
def orderAndSave : List SaveAction :=
  .op (Env.fair 5) (.orderCreate (lit "ORDER_CREATE|table=1|items=1:1") 1) ::
    List.replicate 5 (.fileStep .client)

/-- Two lives with an order each, and one between that does not come up. -/
def threeLives : List Generation :=
  [⟨none, Env.fair 0, orderAndSave⟩, ⟨some headlessMenu, Env.fair 0, []⟩,
    ⟨none, Env.fair 0, orderAndSave⟩]

theorem orderly_of_decided {g : Generation} {file : Option Bytes} (hfits : ∀ a ∈ g.actions, a.Fits)
    (hturns : Runs.AllSteps saveStep InTurn
      (Saving.start (startUp g.env (World.boot file g.menuFile)).2) g.actions)
    (hsaved : ((g.saving file).stage .client).isNone) : g.Orderly file where
  fits := hfits
  turns := by
    intro w hw
    rw [hw] at hturns
    exact hturns
  saved := Option.isNone_iff_eq_none.mp hsaved

theorem orderAndSave_fits : ∀ a ∈ orderAndSave, a.Fits := by
  intro a ha
  rcases List.mem_cons.mp ha with rfl | ha
  · rintro n ⟨⟩
  · rw [List.eq_of_mem_replicate ha]
    trivial

theorem ids_never_reissued_threeLives :
    issuedIds none threeLives = [1, 2] ∧ (issuedIds none threeLives).Pairwise (· < ·) := by
  refine ⟨by decide +kernel, ids_never_reissued defaultConfig_fits ⟨?_, ?_, ?_, trivial⟩⟩
  · exact orderly_of_decided orderAndSave_fits (by decide +kernel) (by decide +kernel)
  · exact orderly_of_decided (fun a ha => by cases ha) (by decide +kernel) (by decide +kernel)
  · exact orderly_of_decided orderAndSave_fits (by decide +kernel) (by decide +kernel)

end TableOrder
