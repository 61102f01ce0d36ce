import TableOrder.Server.ConfigSave

/-!
# What a failed file operation does

The server takes no notice of a durable write that fails: the operation has changed the context before
it, and its result says nothing of the write (`writeFailure_unnoticed`). What may tell of the failure
is a line of `server.log`, and its append may fail too.

A start that fails is a failure the other way round. The menu file without its header leaves an empty
catalog, and the shutdown on the error path saves this catalog over the file (`failedStart_losesRows`).
-/

namespace TableOrder

open CLib

/-! ## Writes that fail -/

/-- Two runs of an operation that report the same and leave the same context, having sent the same. -/
structure SameOutcome {α : Type} (p q : α × World) : Prop where
  result : p.1 = q.1
  ctx : p.2.ctx = q.2.ctx
  sent : p.2.sent = q.2.sent

theorem SameOutcome.refl {α : Type} (p : α × World) : SameOutcome p p := ⟨rfl, rfl, rfl⟩

variable (S : IntSem)

theorem publishOrder_same {w w' : World} (hctx : w.ctx = w'.ctx) (hsent : w.sent = w'.sent) (o : Order) :
    (publishOrder S w o).ctx = (publishOrder S w' o).ctx ∧
      (publishOrder S w o).sent = (publishOrder S w' o).sent := by
  unfold publishOrder serverTouchOrders broadcastRaw
  rw [hctx, hsent]
  exact ⟨rfl, rfl⟩

theorem orderPushed_same (env env' : Env) (w : World) (o : Order) :
    (orderPushed S env w o).ctx = (orderPushed S env' w o).ctx ∧
      (orderPushed S env w o).sent = (orderPushed S env' w o).sent := by
  apply publishOrder_same
  · simp
  · simp

/-- The rest of the environment decides what is in the files and nothing else. -/
theorem serverPayOrder_same (env env' : Env) (w : World) (orderId : Int) :
    SameOutcome (serverPayOrder S env w orderId) (serverPayOrder S env' w orderId) := by
  unfold serverPayOrder
  split
  · exact .refl _
  · next i o _ =>
    split
    · exact .refl _
    · let paid := setStatus w i .paid
      have hctx : (appendSalesMeta env paid (saleLine orderId o env.now)).ctx =
          (appendSalesMeta env' paid (saleLine orderId o env'.now)).ctx := by
        rw [appendSalesMeta_ctx, appendSalesMeta_ctx]
      have hsent : (appendSalesMeta env paid (saleLine orderId o env.now)).sent =
          (appendSalesMeta env' paid (saleLine orderId o env'.now)).sent := by
        rw [appendSalesMeta_sent, appendSalesMeta_sent]
      obtain ⟨hctx, hsent⟩ := publishOrder_same S hctx hsent (o.withStatus .paid)
      exact ⟨rfl, hctx, hsent⟩

theorem orderCreateStep_same {env env' : Env} (hnow : env.now = env'.now) (w : World) (line : Bytes)
    (tableId : Int) :
    SameOutcome (orderCreateStep S env w line tableId) (orderCreateStep S env' w line tableId) := by
  unfold orderCreateStep
  split
  · exact .refl _
  · unfold orderCreateLocked
    rw [hnow]
    split
    · exact .refl _
    · split
      · exact .refl _
      · split
        · exact .refl _
        · split
          · exact .refl _
          · next ord _ _ w _ =>
            obtain ⟨hctx, hsent⟩ := orderPushed_same S env env' w ord
            exact ⟨rfl, hctx, hsent⟩

theorem serverCreateOrder_same {env env' : Env} (hnow : env.now = env'.now) (w : World) (tableId : Int)
    (cart : Cart) :
    SameOutcome (serverCreateOrder S env w tableId cart) (serverCreateOrder S env' w tableId cart) := by
  unfold serverCreateOrder
  rw [hnow]
  split
  · exact .refl _
  · split
    · exact .refl _
    · split
      · exact .refl _
      · next ord _ _ w _ =>
        obtain ⟨hctx, hsent⟩ := orderPushed_same S env env' w ord
        exact ⟨rfl, hctx, hsent⟩

/-- A log after an append that failed: at most a part of the line is in it. -/
theorem appendFile_fails {r : AppendResult} {file : List Bytes} {line : Bytes}
    (h : (appendFile r file line).2 = false) :
    (appendFile r file line).1 = file ∨
      ∃ n < line.length, (appendFile r file line).1 = file ++ [line.take n] := by
  cases r with
  | openFails => exact .inl rfl
  | writes n =>
    unfold appendFile at h ⊢
    simp only at h ⊢
    split at h
    · cases h
    · next hshort =>
      rw [if_neg hshort]
      exact .inr ⟨n, Nat.not_le.mp hshort, rfl⟩

theorem appendSalesMeta_fails {env : Env} {w : World} {text : Bytes}
    (hfails : (appendFile env.salesLog w.salesLog text).2 = false) :
    (appendSalesMeta env w text).serverLog =
      (appendFile env.serverLog w.serverLog (lit "sales.log write failed\n")).1 := by
  unfold appendSalesMeta
  split
  · next log heq =>
    rw [heq] at hfails
    cases hfails
  · rfl

/-- The order is paid, and the logs have at most a part of the sale, and a note. -/
theorem serverPayOrder_saleFails {env : Env} {w : World} {orderId : Int} {i : Nat} {o : Order}
    (hfind : ordersFind w.ctx.orders.items orderId = some (i, o)) (hst : o.status = .done)
    (hfails : (appendFile env.salesLog w.salesLog (saleLine orderId o env.now)).2 = false) :
    (serverPayOrder S env w orderId).2.ctx.orders.items[i]? = some (o.withStatus .paid) ∧
      ((serverPayOrder S env w orderId).2.salesLog = w.salesLog ∨
        ∃ n < (saleLine orderId o env.now).length, (serverPayOrder S env w orderId).2.salesLog =
          w.salesLog ++ [(saleLine orderId o env.now).take n]) ∧
      (serverPayOrder S env w orderId).2.serverLog =
        (appendFile env.serverLog w.serverLog (lit "sales.log write failed\n")).1 := by
  have hpaid : serverPayOrder S env w orderId = (.ok (), publishOrder S
      (appendSalesMeta env (setStatus w i .paid) (saleLine orderId o env.now)) (o.withStatus .paid)) := by
    unfold serverPayOrder
    rw [hfind]
    simp only [hst, ne_eq, not_true_eq_false, if_false]
  rcases serverPayOrder_cases S hpaid with ⟨⟨e, he⟩, -⟩ | ⟨j, o', hfind', -, -, hlog, hm⟩
  · cases he
  · rw [hfind] at hfind'
    cases hfind'
    rw [hpaid]
    refine ⟨?_, ?_, ?_⟩
    · have hlt := (List.getElem?_eq_some_iff.mp hm.found).1
      rw [hm.orders, List.getElem?_set_self hlt]
    · rw [hlog]
      exact appendFile_fails hfails
    · exact appendSalesMeta_fails hfails

/-- A save that fails after an order was created leaves the file behind the counter. -/
theorem orderPushed_saveFails {env : Env} (hfails : env.configSaved = false) (w : World) (o : Order) :
    (orderPushed S env w o).configFile = w.configFile := by
  have hmeta (v : World) (text : Bytes) : (appendOrdersMeta env v text).configFile = v.configFile := by
    unfold appendOrdersMeta
    split <;> rfl
  have hsave (v : World) : serverSaveConfig env v = v := by
    unfold serverSaveConfig
    rw [hfails]
  unfold orderPushed
  simp only [hsave]
  exact hmeta _ _

theorem pushOrderLocked_configFile {w w' : World} {o : Order} (h : pushOrderLocked w o = some w') :
    w'.configFile = w.configFile := by
  obtain ⟨orders, -, rfl⟩ := Option.map_eq_some_iff.mp h
  rfl

theorem orderCreateStep_saveFails {env : Env} (hfails : env.configSaved = false) (w : World)
    (line : Bytes) (tableId : Int) :
    (orderCreateStep S env w line tableId).2.configFile = w.configFile := by
  unfold orderCreateStep
  split
  · rfl
  · unfold orderCreateLocked
    split
    · rfl
    · split
      · rfl
      · split
        · rfl
        · split
          · rfl
          · next hpush =>
            rw [orderPushed_saveFails S hfails]
            exact pushOrderLocked_configFile hpush

theorem serverCreateOrder_saveFails {env : Env} (hfails : env.configSaved = false) (w : World)
    (tableId : Int) (cart : Cart) :
    (serverCreateOrder S env w tableId cart).2.configFile = w.configFile := by
  unfold serverCreateOrder
  split
  · rfl
  · split
    · rfl
    · split
      · rfl
      · next hpush =>
        rw [orderPushed_saveFails S hfails]
        exact pushOrderLocked_configFile hpush

/-- Whatever happens to the files, the operations end as if every write had succeeded. Only the files
tell: for a sale that was not appended whole a note is tried in `server.log`, and a config that was not
saved is the one from before the order. -/
theorem writeFailure_unnoticed (env : Env) (w : World) :
    (∀ orderId, SameOutcome (serverPayOrder S env w orderId)
      (serverPayOrder S (Env.fair env.now) w orderId)) ∧
    (∀ line tableId, SameOutcome (orderCreateStep S env w line tableId)
      (orderCreateStep S (Env.fair env.now) w line tableId)) ∧
    (∀ tableId cart, SameOutcome (serverCreateOrder S env w tableId cart)
      (serverCreateOrder S (Env.fair env.now) w tableId cart)) ∧
    (∀ orderId i o, ordersFind w.ctx.orders.items orderId = some (i, o) → o.status = .done →
      (appendFile env.salesLog w.salesLog (saleLine orderId o env.now)).2 = false →
      let w' := (serverPayOrder S env w orderId).2
      w'.ctx.orders.items[i]? = some (o.withStatus .paid) ∧
        (w'.salesLog = w.salesLog ∨ ∃ n < (saleLine orderId o env.now).length,
          w'.salesLog = w.salesLog ++ [(saleLine orderId o env.now).take n]) ∧
        w'.serverLog = (appendFile env.serverLog w.serverLog (lit "sales.log write failed\n")).1) ∧
    (env.configSaved = false →
      (∀ line tableId, (orderCreateStep S env w line tableId).2.configFile = w.configFile) ∧
      ∀ tableId cart, (serverCreateOrder S env w tableId cart).2.configFile = w.configFile) := by
  have hnow : env.now = (Env.fair env.now).now := rfl
  refine ⟨?_, ?_, ?_, ?_, ?_⟩
  · exact serverPayOrder_same S env (Env.fair env.now) w
  · exact orderCreateStep_same S hnow w
  · exact serverCreateOrder_same S hnow w
  · intro orderId i o hfind hst hfails
    exact serverPayOrder_saleFails S hfind hst hfails
  · intro hfails
    exact ⟨orderCreateStep_saveFails S hfails w, serverCreateOrder_saveFails S hfails w⟩

/-- The operation reported an error, and left the orders and the counter. -/
structure Refused {ε α : Type} (p : Except ε α × World) (w : World) : Prop where
  failed : failed p.1 = true
  orders : p.2.ctx.orders = w.ctx.orders
  counter : p.2.ctx.cfg.nextOrderId = w.ctx.cfg.nextOrderId

/-- An order of one tea, which the kitchen has done. -/
def servedTea : World :=
  runOps .wrap smallServer
    [(Env.fair 1, .orderCreate (lit "ORDER_CREATE|table=1|items=1:1") 1),
      (Env.fair 2, .updateOrderStatus 1 .done)]

/-- No file can be opened for writing. -/
def fullDisk : Env :=
  { Env.fair 3 with salesLog := .openFails, serverLog := .openFails, configSaved := false }

theorem servedTea_found : ∃ o, ordersFind servedTea.ctx.orders.items 1 = some (0, o) ∧ o.status = .done := by
  have hsome : (ordersFind servedTea.ctx.orders.items 1).any (fun p => p.1 = 0 ∧ p.2.status = .done) := by
    decide +kernel
  rcases hfind : ordersFind servedTea.ctx.orders.items 1 with _ | ⟨i, o⟩
  · rw [hfind] at hsome
    cases hsome
  · rw [hfind] at hsome
    have hdone : i = 0 ∧ o.status = .done := by simpa using hsome
    exact ⟨o, by rw [hdone.1], hdone.2⟩

theorem writeFailure_unnoticed_fullDisk : ∃ o,
    let w' := (serverPayOrder .wrap fullDisk servedTea 1).2
    w'.ctx.orders.items[0]? = some (o.withStatus .paid) ∧
      (w'.salesLog = servedTea.salesLog ∨ ∃ n < (saleLine 1 o 3).length,
        w'.salesLog = servedTea.salesLog ++ [(saleLine 1 o 3).take n]) ∧
      w'.serverLog =
        (appendFile fullDisk.serverLog servedTea.serverLog (lit "sales.log write failed\n")).1 := by
  obtain ⟨o, hfind, hst⟩ := servedTea_found
  exact ⟨o, (writeFailure_unnoticed .wrap fullDisk servedTea).2.2.2.1 1 0 o hfind hst rfl⟩

/-- The sale and the config cannot be written, and both operations succeed. -/
theorem writeFailure_reported_fails :
    (¬ ∀ (env : Env) (w : World) (orderId : Int), env.salesLog = .openFails →
      Refused (serverPayOrder .wrap env w orderId) w) ∧
    ¬ ∀ (env : Env) (w : World) (line : Bytes) (tableId : Int), env.configSaved = false →
      Refused (orderCreateStep .wrap env w line tableId) w := by
  constructor
  · intro h
    have hfailed := (h fullDisk servedTea 1 rfl).failed
    have hpaid : failed (serverPayOrder .wrap fullDisk servedTea 1).1 = false := by
      decide +kernel
    rw [hpaid] at hfailed
    cases hfailed
  · intro h
    have hfailed := (h fullDisk smallServer (lit "ORDER_CREATE|table=1|items=1:1") 1 rfl).failed
    have hcreated : failed (orderCreateStep .wrap fullDisk smallServer
        (lit "ORDER_CREATE|table=1|items=1:1") 1).1 = false := by
      decide +kernel
    rw [hcreated] at hfailed
    cases hfailed

/-! ## A start that fails -/

/-- The clients that are in use are closed. -/
def ClientTable.closeAll (clients : ClientTable) : ClientTable where
  slots := clients.slots.map fun c => if c.inUse && 0 ≤ c.fd then { c with inUse := false } else c
  size := by rw [List.length_map]; exact clients.size

/-- `server_shutdown`. -/
def serverShutdown (env : Env) (w : World) : World :=
  let w := { w with ctx := { w.ctx with
    shuttingDown := true
    clients := w.ctx.clients.closeAll } }
  let w := serverSaveConfig env w
  if env.menuSaved then { w with menuFile := some (menuSaveFile w.ctx.menu) } else w

/-- `main` up to the threads: the error path shuts down what has been loaded so far. -/
def startUp (env : Env) (w : World) : Except Bytes Unit × World :=
  match serverLoadPersistent w with
  | (.error e, w) => (.error e, serverShutdown env w)
  | (.ok (), w) => (.ok (), w)

/-- The lines of a menu file that are not its header, as the loader splits it. A first line that is no
header is a row as any other, also where it was meant as one. -/
def menuFileRows (file : Option Bytes) : List Bytes :=
  match tokens (ch '\n') ((clip 65536 (file.getD [])).takeWhile (· ≠ 0)) with
  | [] => []
  | line :: lines => if parseHeaderOk (clip 512 line) then lines else line :: lines

/-- From `w` to `w'` the files kept the rows of the menu and the counter. -/
structure LeavesFiles (w w' : World) : Prop where
  rows : menuFileRows w'.menuFile = menuFileRows w.menuFile
  counter : (storageLoadConfig w'.configFile).nextOrderId = (storageLoadConfig w.configFile).nextOrderId

/-- The start fails on a first line that is no header, and leaves no catalog. -/
theorem menuLoadFile_fails {file : Option Bytes} {e : Bytes} (h : (menuLoadFile file).2.2 = some e) :
    (menuLoadFile file).1 = menuInitCatalog ∧ menuFileRows file ≠ [] := by
  have htext {text e : Bytes} (hbad : menuLoadText text = .error e) :
      menuFileRows (some text) ≠ [] := by
    cases hlines : tokens (ch '\n') ((clip 65536 text).takeWhile (· ≠ 0)) with
    | nil =>
      simp only [menuLoadText, hlines] at hbad
      cases hbad
    | cons header rows =>
      simp only [menuLoadText, hlines] at hbad
      simp only [menuFileRows, Option.getD_some, hlines]
      by_cases hheader : parseHeaderOk (clip 512 header) = true
      · rw [if_pos hheader] at hbad
        cases hbad
      · rw [if_neg hheader]
        exact List.cons_ne_nil _ _
  have hdefault : ∀ e, menuLoadText defaultMenuFile ≠ .error e := by
    intro e he
    have hloads : failed (menuLoadText defaultMenuFile) = false := by
      decide +kernel
    rw [he] at hloads
    cases hloads
  unfold menuLoadFile at h ⊢
  simp only at h ⊢
  split at h
  · next e' hbad =>
    refine ⟨rfl, ?_⟩
    cases file with
    | none => exact absurd hbad (hdefault e')
    | some text => exact htext hbad
  · split at h
    · split at h
      · next e' hbad => exact absurd hbad (hdefault e')
      · cases h
    · cases h

/-- The header that the empty catalog is saved as has no rows behind it. -/
theorem menuFileRows_empty : menuFileRows (some (menuSaveFile menuInitCatalog)) = [] := by
  decide +kernel

theorem serverShutdown_menuFile {env : Env} (hsaved : env.menuSaved = true) (w : World) :
    (serverShutdown env w).menuFile = some (menuSaveFile w.ctx.menu) := by
  unfold serverShutdown
  simp only [hsaved, if_true, serverSaveConfig_ctx]

theorem startUp_fails {env : Env} {w : World} (h : failed (startUp env w).1 = true) :
    ∃ loaded, (startUp env w).2 = serverShutdown env loaded ∧
      loaded.ctx.menu = menuInitCatalog ∧ loaded.ctx.cfg = storageLoadConfig w.configFile ∧
      loaded.configFile = some (w.configFile.getD defaultConfigFile) ∧ menuFileRows w.menuFile ≠ [] := by
  unfold startUp serverLoadPersistent at h ⊢
  simp only at h ⊢
  cases herr : (menuLoadFile w.menuFile).2.2 with
  | none =>
    simp only [herr] at h
    cases h
  | some e =>
    obtain ⟨hmenu, hrows⟩ := menuLoadFile_fails herr
    exact ⟨_, rfl, hmenu, rfl, rfl, hrows⟩

/-- Whatever the files hold: if the start fails and the shutdown saves the menu, no row is left of
those that were there. -/
theorem failedStart_losesRows {configFile menuFile : Option Bytes} {env : Env}
    (hfails : failed (startUp env (World.boot configFile menuFile)).1 = true)
    (hsaved : env.menuSaved = true) :
    ¬ LeavesFiles (World.boot configFile menuFile) (startUp env (World.boot configFile menuFile)).2 := by
  obtain ⟨loaded, hshut, hmenu, -, -, hrows⟩ := startUp_fails hfails
  intro h
  have hafter := h.rows
  rw [hshut, serverShutdown_menuFile hsaved, hmenu, menuFileRows_empty] at hafter
  exact hrows hafter.symm

/-- Saving keeps the counter in a file that has it. -/
theorem load_serverSaveConfig (env : Env) {w : World} (hfits : ConfigFits (configText w.configFile))
    (hcfg : w.ctx.cfg.Fits) (hpos : 1 ≤ w.ctx.cfg.nextOrderId)
    (hload : (storageLoadConfig w.configFile).nextOrderId = w.ctx.cfg.nextOrderId) :
    (storageLoadConfig (serverSaveConfig env w).configFile).nextOrderId = w.ctx.cfg.nextOrderId := by
  unfold serverSaveConfig
  split
  · next text _ htext =>
    obtain ⟨text', hrewrite, -, -, hnew⟩ := rewriteConfigLines_fits hfits hcfg
    obtain rfl : text' = text := Option.some.inj (hrewrite.symm.trans htext)
    exact hnew hpos
  · exact hload

/-- The counter survives, if the config file fits the buffers of the save. -/
theorem failedStart_keepsCounter {w : World} {env : Env} (hfails : failed (startUp env w).1 = true)
    (hfits : ConfigFits (configText (some (w.configFile.getD defaultConfigFile)))) :
    (storageLoadConfig (startUp env w).2.configFile).nextOrderId =
      (storageLoadConfig w.configFile).nextOrderId := by
  obtain ⟨loaded, hshut, -, hcfg, hfile, -⟩ := startUp_fails hfails
  obtain ⟨hmin, hmax, hpos, hnext⟩ := storageLoadConfig_range w.configFile
  let closed : World := { loaded with ctx := { loaded.ctx with
    shuttingDown := true
    clients := loaded.ctx.clients.closeAll } }
  have hshutdown : (serverShutdown env loaded).configFile = (serverSaveConfig env closed).configFile := by
    unfold serverShutdown
    simp only
    split <;> rfl
  have hclosed : closed.ctx.cfg = storageLoadConfig w.configFile := hcfg
  have hcfgFits : closed.ctx.cfg.Fits := by
    have hT : (MAX_TABLES : Int) = 64 := rfl
    rw [hclosed]
    refine ⟨?_, hnext⟩
    unfold FitsInt
    omega
  have hsame : storageLoadConfig closed.configFile = storageLoadConfig w.configFile := by
    rw [show closed.configFile = some (w.configFile.getD defaultConfigFile) from hfile]
    cases w.configFile <;> rfl
  rw [hshut, hshutdown, ← hclosed]
  apply load_serverSaveConfig
  · rw [show closed.configFile = some (w.configFile.getD defaultConfigFile) from hfile]
    exact hfits
  · exact hcfgFits
  · rw [hclosed]
    exact hpos
  · rw [hsame, hclosed]

/-- A menu file without its header. -/
def headlessMenu : Bytes := lit "1,Tea,900,0\n"

theorem failedStart_losesRows_headless :
    ¬ LeavesFiles (World.boot none (some headlessMenu))
      (startUp (Env.fair 0) (World.boot none (some headlessMenu))).2 :=
  failedStart_losesRows (by decide +kernel) rfl

theorem failedStart_leavesFiles_fails :
    ¬ ∀ (configFile menuFile : Option Bytes) (now : Int),
      failed (startUp (Env.fair now) (World.boot configFile menuFile)).1 = true →
      LeavesFiles (World.boot configFile menuFile)
        (startUp (Env.fair now) (World.boot configFile menuFile)).2 := by
  intro h
  have hkept := (h none (some headlessMenu) 0 (by decide +kernel)).rows
  have hlost : menuFileRows (startUp (Env.fair 0) (World.boot none (some headlessMenu))).2.menuFile = [] ∧
      menuFileRows (World.boot none (some headlessMenu)).menuFile ≠ [] := by
    decide +kernel
  rw [hlost.1] at hkept
  exact hlost.2 hkept.symm

end TableOrder
