import TableOrder.Lib.Cell
import TableOrder.Server.Connections

/-!
# Staff calls at the POS (`ui_pos_staff_active`)

A table calls the staff with `CALL_STAFF|`, and the POS marks it until the operator presses `c` on it,
for three minutes at most. The server keeps no more than the time of the last call of each table. What
the mark says is about the whole run: the last call for this table is fresh, it came from the line of a
table client, and nobody cleared it since (`marked_iff_called`).
-/

namespace TableOrder

open CLib
open Cell (lastWrite)

/-! ## The mark -/

def uiPosStaffActive (ctx : ServerContext) (now tableId : Int) : Bool :=
  let called := if 0 < tableId ∧ tableId ≤ MAX_TABLES then ctx.staffCallAt tableId else 0
  if called = 0 then false else decide (now - called < 180)

theorem uiPosStaffActive_iff {ctx : ServerContext} {now tableId : Int} :
    uiPosStaffActive ctx now tableId = true ↔ (0 < tableId ∧ tableId ≤ MAX_TABLES) ∧
      ctx.staffCallAt tableId ≠ 0 ∧ now - ctx.staffCallAt tableId < 180 := by
  unfold uiPosStaffActive
  by_cases htable : 0 < tableId ∧ tableId ≤ MAX_TABLES
  · simp only [htable, and_self, if_true, true_and]
    by_cases hnone : ctx.staffCallAt tableId = 0
    · simp [hnone]
    · rw [if_neg hnone, decide_eq_true_iff, and_iff_right hnone]
  · simp only [htable, if_false, if_true, false_and, Bool.false_eq_true]

/-! ## Who writes the time of a call -/

/-- Nothing about staff calls changed. -/
structure SameStaff (w w' : World) : Prop where
  callAt : w'.ctx.staffCallAt = w.ctx.staffCallAt
  message : w'.ctx.lastStaffMessage = w.ctx.lastStaffMessage
  revision : w'.ctx.staffRevision = w.ctx.staffRevision

theorem SameStaff.refl (w : World) : SameStaff w w := ⟨rfl, rfl, rfl⟩

theorem SameStaff.of_ctx {w w' : World} (h : w'.ctx = w.ctx) : SameStaff w w' := by
  constructor <;> rw [h]

def Op.onStaff : Op → Bool
  | .staffCall _ => true
  | .staffTouch => true
  | .staffClear _ => true
  | _ => false

theorem Op.sameStaff (op : Op) (hop : op.onStaff = false) (env : Env) (w : World) :
    SameStaff w (step .wrap (env, op) w) := by
  by_cases horders : op.onOrders = true
  · show SameStaff w (op.run .wrap env w).2
    rcases Op.run_onOrders .wrap horders env w with hsame | ⟨o, hc⟩ | ⟨i, o, st, hm⟩
    · rw [hsame]
      exact SameStaff.refl w
    · constructor <;> rw [hc.ctx]
    · constructor <;> rw [hm.ctx]
  · cases op with
    | staffCall tbl => cases hop
    | staffTouch => cases hop
    | staffClear tbl => cases hop
    | staffLog tbl => exact .of_ctx (appendOrdersMeta_ctx ..)
    | saveConfig => exact .of_ctx (serverSaveConfig_ctx ..)
    | enter fd kind tableId =>
      show SameStaff w (enterClient w fd kind tableId)
      unfold enterClient sendSnapshotLocked serverRegisterClient
      constructor <;> (dsimp only; split <;> rfl)
    | leave fd =>
      show SameStaff w { w with ctx := serverUnregisterFd w.ctx fd }
      unfold serverUnregisterFd
      constructor <;> (dsimp only; split <;> rfl)
    | reply fd r => exact ⟨rfl, rfl, rfl⟩
    | staffBroadcast tbl => exact ⟨rfl, rfl, rfl⟩
    | changeMenu menu => exact ⟨rfl, rfl, rfl⟩
    | menuSync => exact ⟨rfl, rfl, rfl⟩
    | syncMaxTables n => exact ⟨rfl, rfl, rfl⟩
    | _ => exact absurd rfl horders

/-- What an operation writes into the time of the last call of a table. -/
def Op.callWrite (tableId : Int) (env : Env) : Op → Option Int
  | .staffCall tbl => if tbl = tableId then some env.now else none
  | .staffClear tbl => if tbl = tableId then some 0 else none
  | _ => none

theorem Op.staffCallAt_step {tableId : Int} (htable : 0 < tableId ∧ tableId ≤ MAX_TABLES) (op : Op)
    (env : Env) (w : World) : (step .wrap (env, op) w).ctx.staffCallAt tableId =
      (op.callWrite tableId env).getD (w.ctx.staffCallAt tableId) := by
  have hwrite (tbl value : Int) : (if 0 < tbl ∧ tbl ≤ MAX_TABLES then
      Function.update w.ctx.staffCallAt tbl value else w.ctx.staffCallAt) tableId =
        (if tbl = tableId then some value else none).getD (w.ctx.staffCallAt tableId) := by
    by_cases heq : tbl = tableId
    · rw [heq, if_pos htable, if_pos rfl, Function.update_self, Option.getD_some]
    · rw [if_neg heq, Option.getD_none]
      split
      · exact Function.update_of_ne (Ne.symm heq) ..
      · rfl
  by_cases hop : op.onStaff = true
  · cases op with
    | staffCall tbl => exact hwrite tbl env.now
    | staffTouch => rfl
    | staffClear tbl => exact hwrite tbl 0
    | _ => cases hop
  · rw [(Op.sameStaff op (Bool.eq_false_of_not_eq_true hop) env w).callAt]
    cases op with
    | staffCall tbl => exact absurd rfl hop
    | staffClear tbl => exact absurd rfl hop
    | _ => rfl

/-! ## The threads -/

/-- What an action of the hub writes into it. -/
def HubAction.callWrite (tableId : Int) (a : HubAction) (s : Hub) : Option Int :=
  match a with
  | .pos env op => if op.isPos then op.callWrite tableId env else none
  | .work fd env =>
    match s.phase fd with
    | .serving _ _ (op :: _) => op.callWrite tableId env
    | _ => none
  | _ => none

/-- A line is answered up to the first unlock without a word about staff calls. -/
theorem clientTurn_sameStaff (env : Env) (w : World) (fd : Int) (kind : ClientKind) (tableId : Int)
    (line : Bytes) : SameStaff w (clientTurn .wrap env w fd kind tableId line).2 := by
  have hturn := clientTurn_cases .wrap env w fd kind tableId line
  generalize clientTurn .wrap env w fd kind tableId line = turn at hturn ⊢
  cases hturn with
  | menu => exact SameStaff.refl w
  | replied => exact SameStaff.refl w
  | ordered => exact Op.sameStaff (.orderCreate line tableId) rfl env w
  | cancelled => exact Op.sameStaff (.orderCancel line tableId) rfl env w
  | updated => exact Op.sameStaff (.orderUpdate line) rfl env w
  | called => exact SameStaff.refl w

theorem hubStep_staffCallAt {tableId : Int} (htable : 0 < tableId ∧ tableId ≤ MAX_TABLES)
    (a : HubAction) (s : Hub) : (hubStep a s).world.ctx.staffCallAt tableId =
      (a.callWrite tableId s).getD (s.world.ctx.staffCallAt tableId) := by
  cases a with
  | pos env op =>
    simp only [hubStep, HubAction.callWrite]
    split
    · exact Op.staffCallAt_step htable op env s.world
    · rfl
  | connect fd =>
    simp only [hubStep, HubAction.callWrite]
    split <;> rfl
  | hello fd line =>
    simp only [hubStep, HubAction.callWrite]
    split
    · split <;> rfl
    · rfl
  | register fd =>
    simp only [hubStep, HubAction.callWrite]
    split
    · next kind own _ =>
      exact congrFun (Op.sameStaff (.enter fd kind own) rfl (Env.fair 0) s.world).callAt tableId
    · rfl
  | line fd env line =>
    simp only [hubStep, HubAction.callWrite]
    split
    · next kind own _ =>
      exact congrFun (clientTurn_sameStaff env s.world fd kind own line).callAt tableId
    · rfl
  | work fd env =>
    simp only [hubStep, HubAction.callWrite]
    cases s.phase fd with
    | serving kind own todo =>
      cases todo with
      | nil => rfl
      | cons op todo => exact Op.staffCallAt_step htable op env s.world
    | _ => rfl
  | disconnect fd =>
    simp only [hubStep, HubAction.callWrite]
    split
    · rfl
    · exact congrFun (Op.sameStaff (.leave fd) rfl (Env.fair 0) s.world).callAt tableId
    · rfl

/-- How a thread comes to have this to do. -/
inductive Todo (s : Hub) (a : HubAction) (fd : Int) (kind : ClientKind) (tableId : Int) :
    List Op → Prop
  | kept (todo : List Op) : s.phase fd = .serving kind tableId todo → Todo s a fd kind tableId todo
  | registered : Todo s a fd kind tableId []
  | read (env : Env) (line : Bytes) : a = .line fd env line → s.phase fd = .serving kind tableId [] →
      Todo s a fd kind tableId (clientTurn .wrap env s.world fd kind tableId line).1
  | worked (op : Op) (todo : List Op) : s.phase fd = .serving kind tableId (op :: todo) →
      Todo s a fd kind tableId todo

theorem hubStep_todo {s : Hub} {a : HubAction} {fd : Int} {kind : ClientKind} {tableId : Int}
    {todo : List Op} (h : (hubStep a s).phase fd = .serving kind tableId todo) :
    Todo s a fd kind tableId todo := by
  -- another thread's step leaves the phase alone, and so does one that is not ready
  have hset {w : World} {fd' : Int} {phase : Phase}
      (hset : (s.setPhase w fd' phase).phase fd = .serving kind tableId todo)
      (hown : fd = fd' → phase = .serving kind tableId todo → Todo s a fd kind tableId todo) :
      Todo s a fd kind tableId todo := by
    by_cases hfd : fd = fd'
    · subst hfd
      rw [setPhase_self] at hset
      exact hown rfl hset
    · rw [setPhase_of_ne _ _ _ hfd] at hset
      exact .kept todo hset
  cases a with
  | pos env op =>
    simp only [hubStep] at h
    split at h <;> exact .kept todo h
  | connect fd' =>
    simp only [hubStep] at h
    split at h
    · exact hset h (fun _ h => by cases h)
    · exact .kept todo h
  | hello fd' line =>
    simp only [hubStep] at h
    split at h
    · split at h
      · exact hset h (fun _ h => by cases h)
      · exact hset h (fun _ h => by cases h)
    · exact .kept todo h
  | register fd' =>
    simp only [hubStep] at h
    split at h
    · apply hset h
      rintro - ⟨⟩
      exact .registered
    · exact .kept todo h
  | line fd' env line =>
    simp only [hubStep] at h
    split at h
    · next hphase =>
      apply hset h
      rintro rfl ⟨⟩
      exact .read env line rfl hphase
    · exact .kept todo h
  | work fd' env =>
    simp only [hubStep] at h
    split at h
    · next op _ hphase =>
      apply hset h
      rintro rfl ⟨⟩
      exact .worked op todo hphase
    · exact .kept todo h
  | disconnect fd' =>
    simp only [hubStep] at h
    split at h
    · exact hset h (fun _ h => by cases h)
    · exact hset h (fun _ h => by cases h)
    · exact .kept todo h

/-! ## Calls -/

/-- A client of a table sent a line that calls the staff to `tableId`. -/
def Asked (start : Hub) (before : List HubAction) (fd own tableId : Int) : Prop :=
  ∃ sent env line later, before = sent ++ .line fd env line :: later ∧
    (runHub start sent).phase fd = .serving .table own [] ∧
    startsWith (lit "CALL_STAFF|") line = true ∧ protoParseCallStaff line = .ok tableId

/-- After `before`, the thread of a table client that asked for it records a call of `tableId`. -/
def Records (start : Hub) (before : List HubAction) (a : HubAction) (tableId now : Int) : Prop :=
  ∃ fd env own todo, a = .work fd env ∧ env.now = now ∧
    (runHub start before).phase fd = .serving .table own (.staffCall tableId :: todo) ∧
    Asked start before fd own tableId

/-- The operator clears the call of `tableId`. -/
def Clears (a : HubAction) (tableId : Int) : Prop := ∃ env, a = .pos env (.staffClear tableId)

theorem Asked.later {start : Hub} {before : List HubAction} {fd own tableId : Int}
    (h : Asked start before fd own tableId) (a : HubAction) :
    Asked start (before ++ [a]) fd own tableId := by
  obtain ⟨sent, env, line, later, rfl, hrest⟩ := h
  exact ⟨sent, env, line, later ++ [a], by simp, hrest⟩

/-- What a thread has to do it was asked for: a call comes first, and nothing of the POS. -/
structure Pending (start : Hub) (before : List HubAction) (fd : Int) (kind : ClientKind) (own : Int)
    (todo : List Op) : Prop where
  work : ∀ op ∈ todo, op.isPos = false
  later : ∀ tableId, .staffCall tableId ∉ todo.tail
  first : ∀ tableId rest, todo = .staffCall tableId :: rest →
    kind = .table ∧ Asked start before fd own tableId

/-- A thread leaves to the POS what is the POS's. -/
theorem clientTurn_isPos (env : Env) (w : World) (fd : Int) (kind : ClientKind) (own : Int)
    (line : Bytes) : ∀ op ∈ (clientTurn .wrap env w fd kind own line).1, op.isPos = false := by
  intro op hop
  have hturn := clientTurn_cases .wrap env w fd kind own line
  generalize clientTurn .wrap env w fd kind own line = turn at hturn hop
  cases hturn with
  | updated => cases hop
  | called tbl =>
    simp only [List.mem_cons, List.not_mem_nil, or_false] at hop
    rcases hop with rfl | rfl | rfl | rfl | rfl <;> rfl
  | _ =>
    rw [List.mem_singleton.mp hop]
    rfl

theorem pending_line {start : Hub} {before : List HubAction} {fd : Int} {kind : ClientKind} {own : Int}
    (hphase : (runHub start before).phase fd = .serving kind own []) (env : Env) (line : Bytes) :
    Pending start (before ++ [.line fd env line]) fd kind own
      (clientTurn .wrap env (runHub start before).world fd kind own line).1 := by
  have hwork := clientTurn_isPos env (runHub start before).world fd kind own line
  have hturn := clientTurn_cases .wrap env (runHub start before).world fd kind own line
  generalize clientTurn .wrap env (runHub start before).world fd kind own line = turn at hwork hturn ⊢
  cases hturn with
  | called tbl hcall hkind hparse =>
    refine ⟨hwork, by simp, ?_⟩
    rintro tableId rest ⟨⟩
    subst hkind
    exact ⟨rfl, before, env, line, [], rfl, hphase, hcall, hparse⟩
  | _ => exact ⟨hwork, by simp, by simp⟩

theorem hub_pending {start : Hub} (hstart : ∀ fd kind own todo, start.phase fd ≠ .serving kind own todo)
    (as : List HubAction) {fd : Int} {kind : ClientKind} {own : Int} {todo : List Op}
    (h : (runHub start as).phase fd = .serving kind own todo) : Pending start as fd kind own todo := by
  suffices hall : ∀ fd kind own todo, (runHub start as).phase fd = .serving kind own todo →
      Pending start as fd kind own todo from hall fd kind own todo h
  refine Runs.run_history (I := fun before (s : Hub) => ∀ fd kind own todo,
    s.phase fd = .serving kind own todo → Pending start before fd kind own todo) ?_ ?_ as
  · intro fd kind own todo h
    exact absurd h (hstart fd kind own todo)
  · intro before a ih fd kind own todo h
    cases hubStep_todo h with
    | kept _ hphase =>
      have hkept := ih fd kind own todo hphase
      refine ⟨hkept.work, hkept.later, ?_⟩
      intro tableId rest htodo
      exact ⟨(hkept.first tableId rest htodo).1, (hkept.first tableId rest htodo).2.later a⟩
    | registered => exact ⟨by simp, by simp, by simp⟩
    | read env line ha hphase =>
      subst ha
      exact pending_line hphase env line
    | worked op _ hphase =>
      have hbefore := ih fd kind own (op :: todo) hphase
      refine ⟨fun op' h => hbefore.work op' (List.mem_cons_of_mem op h), ?_, ?_⟩
      · intro tableId htail
        exact hbefore.later tableId (List.mem_of_mem_tail htail)
      · rintro tableId rest rfl
        exact absurd (List.mem_cons_self ..) (hbefore.later tableId)

/-- The action writes a time only if it records a call, and 0 only if it clears one. -/
theorem callWrite_eq_some {start : Hub}
    (hstart : ∀ fd kind own todo, start.phase fd ≠ .serving kind own todo) {before : List HubAction}
    {a : HubAction} {tableId value : Int} :
    a.callWrite tableId (runHub start before) = some value ↔
      Records start before a tableId value ∨ (Clears a tableId ∧ value = 0) := by
  constructor
  · intro h
    unfold HubAction.callWrite at h
    split at h
    · next env op =>
      split at h
      · next hpos =>
        cases op with
        | staffClear tbl =>
          simp only [Op.callWrite, Option.ite_none_right_eq_some, Option.some.injEq] at h
          obtain ⟨rfl, rfl⟩ := h
          exact .inr ⟨⟨env, rfl⟩, rfl⟩
        | staffCall tbl => cases hpos
        | _ => cases h
      · cases h
    · next fd env =>
      split at h
      · next kind own op todo hphase =>
        have hpending := hub_pending hstart before hphase
        cases op with
        | staffClear tbl => cases hpending.work _ List.mem_cons_self
        | staffCall tbl =>
          simp only [Op.callWrite, Option.ite_none_right_eq_some, Option.some.injEq] at h
          obtain ⟨rfl, rfl⟩ := h
          obtain ⟨rfl, hasked⟩ := hpending.first tbl todo rfl
          exact .inl ⟨fd, env, own, todo, rfl, rfl, hphase, hasked⟩
        | _ => cases h
      · cases h
    · cases h
  · rintro (⟨fd, env, own, todo, rfl, rfl, hphase, -⟩ | ⟨⟨env, rfl⟩, rfl⟩)
    · simp only [HubAction.callWrite, hphase, Op.callWrite, if_true]
    · simp only [HubAction.callWrite, Op.isPos, Op.callWrite, if_true]

theorem booted_sameStaff {configFile menuFile : Option Bytes} {w : World}
    (hload : serverLoadPersistent (World.boot configFile menuFile) = (.ok (), w)) :
    SameStaff (World.boot configFile menuFile) w := by
  unfold serverLoadPersistent at hload
  simp only at hload
  split at hload
  · cases hload
  · cases hload
    exact ⟨rfl, rfl, rfl⟩

/-- The POS marks a table if and only if the last that was done about its calls was to record one, for a
line of a table client that names it, less than three minutes ago. -/
theorem marked_iff_called {configFile menuFile : Option Bytes} {w : World}
    (hload : serverLoadPersistent (World.boot configFile menuFile) = (.ok (), w))
    (as : List HubAction) (tableId now : Int) :
    uiPosStaffActive (runHub (Hub.start w) as).world.ctx now tableId = true ↔
      (0 < tableId ∧ tableId ≤ MAX_TABLES) ∧ ∃ before a after called, as = before ++ a :: after ∧
        Records (Hub.start w) before a tableId called ∧ called ≠ 0 ∧ now - called < 180 ∧
        ∀ mid b rest, after = mid ++ b :: rest → ¬ Clears b tableId ∧
          ∀ again, ¬ Records (Hub.start w) (before ++ a :: mid) b tableId again := by
  have hstart (fd : Int) (kind : ClientKind) (own : Int) (todo : List Op) :
      (Hub.start w).phase fd ≠ .serving kind own todo := by
    rintro ⟨⟩
  have hfirst : (Hub.start w).world.ctx.staffCallAt tableId = 0 :=
    congrFun (booted_sameStaff hload).callAt tableId
  rw [uiPosStaffActive_iff]
  apply and_congr_right
  intro htable
  have hread : (runHub (Hub.start w) as).world.ctx.staffCallAt tableId = _ :=
    Cell.run_read (fun s : Hub => s.world.ctx.staffCallAt tableId) (hubStep_staffCallAt htable)
      (Hub.start w) as
  rw [hread, hfirst]
  constructor
  · rintro ⟨hcalled, hfresh⟩
    cases hlast : lastWrite hubStep (HubAction.callWrite tableId) (Hub.start w) as with
    | none =>
      rw [hlast] at hcalled
      exact absurd rfl hcalled
    | some called =>
      rw [hlast] at hcalled hfresh
      obtain ⟨before, a, after, rfl, hwrite, hquiet⟩ := Cell.lastWrite_eq_some.mp hlast
      have hrecords : Records (Hub.start w) before a tableId called := by
        rcases (callWrite_eq_some hstart).mp hwrite with hrecords | ⟨-, hzero⟩
        · exact hrecords
        · exact absurd hzero hcalled
      refine ⟨before, a, after, called, rfl, hrecords, hcalled, hfresh, ?_⟩
      intro mid b rest hafter
      have hnone : b.callWrite tableId (runHub (Hub.start w) (before ++ a :: mid)) = none :=
        hquiet mid b rest hafter
      constructor
      · intro hclears
        rw [(callWrite_eq_some hstart).mpr (.inr ⟨hclears, rfl⟩)] at hnone
        cases hnone
      · intro again hagain
        rw [(callWrite_eq_some hstart).mpr (.inl hagain)] at hnone
        cases hnone
  · rintro ⟨before, a, after, called, rfl, hrecords, hcalled, hfresh, hquiet⟩
    have hlast : lastWrite hubStep (HubAction.callWrite tableId) (Hub.start w)
        (before ++ a :: after) = some called := by
      apply Cell.lastWrite_eq_some.mpr
      refine ⟨before, a, after, rfl, (callWrite_eq_some hstart).mpr (.inl hrecords), ?_⟩
      intro mid b rest hafter
      obtain ⟨hclears, hagain⟩ := hquiet mid b rest hafter
      cases hwrite : b.callWrite tableId (runHub (Hub.start w) (before ++ a :: mid)) with
      | none => exact hwrite
      | some value =>
        rcases (callWrite_eq_some hstart).mp hwrite with hrecords | ⟨hclear, -⟩
        · exact absurd hrecords (hagain value)
        · exact absurd hclear hclears
    rw [hlast]
    exact ⟨hcalled, hfresh⟩

/-- The client of table 2 calls, the operator clears the call, and the client calls again. -/
def callsAgain : List HubAction :=
  [.connect 5, .hello 5 (lit "HELLO TABLE 2"), .register 5,
    .line 5 (Env.fair 100) (lit "CALL_STAFF|table=2"), .work 5 (Env.fair 100), .work 5 (Env.fair 100),
    .work 5 (Env.fair 100), .work 5 (Env.fair 100), .work 5 (Env.fair 100),
    .pos (Env.fair 110) (.staffClear 2),
    .line 5 (Env.fair 120) (lit "CALL_STAFF|table=2"), .work 5 (Env.fair 120)]

theorem marked_iff_called_again :
    let w := (serverLoadPersistent (World.boot none none)).2
    ∃ before a after called, callsAgain = before ++ a :: after ∧
      Records (Hub.start w) before a 2 called ∧ called ≠ 0 ∧ 299 - called < 180 ∧
      ∀ mid b rest, after = mid ++ b :: rest → ¬ Clears b 2 ∧
        ∀ again, ¬ Records (Hub.start w) (before ++ a :: mid) b 2 again := by
  rw [firstStart_eq]
  intro w
  have hload : serverLoadPersistent (World.boot none none) = (.ok (), w) := serverLoadPersistent_none
  have hmarked : uiPosStaffActive (runHub (Hub.start w) callsAgain).world.ctx 299 2 = true := by
    decide +kernel
  exact ((marked_iff_called hload callsAgain 2 299).mp hmarked).2

end TableOrder
