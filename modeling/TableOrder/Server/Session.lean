import TableOrder.Server.Steps

/-!
# What the thread of one table touches

The thread of a table client among the other threads: it reads a line, and what is left to do for it
after the first unlock comes one operation at a time, with anything in between. Each of its steps is
to touch nothing of another table (`OwnTable`).

Every request but one is tied to the table of the connection. A staff call is recorded and broadcast
for whatever table the line names, so the condition is on these lines (`CallsFor`).
-/

namespace TableOrder

open CLib

structure Session where
  world : World
  /-- What the thread has still to do for its last line. -/
  todo : List Op

inductive SessionAction where
  /-- An operation of another thread. -/
  | other (a : Action)
  | line (env : Env) (line : Bytes)
  | work (env : Env)

def SessionAction.isOwn : SessionAction → Bool
  | .other _ => false
  | _ => true

/-- The thread reads no line before it is done with the last one. -/
def sessionStep (fd tableId : Int) : SessionAction → Session → Session
  | .other a, s => { s with world := step .wrap a s.world }
  | .line env line, s =>
    match s.todo with
    | [] =>
      let (todo, w) := clientTurn .wrap env s.world fd .table tableId line
      ⟨w, todo⟩
    | _ :: _ => s
  | .work env, s =>
    match s.todo with
    | [] => s
    | op :: todo => ⟨step .wrap (env, op) s.world, todo⟩

def runSession (fd tableId : Int) (s : Session) (as : List SessionAction) : Session :=
  Runs.run (sessionStep fd tableId) s as

/-! ## Nothing of another table -/

def isStaffCall (text : Bytes) : Bool := startsWith (lit "STAFF_CALL|") text

/-- From `w` to `w'` nothing of another table changed, and no order but into CANCELLED. -/
structure OwnTable (tableId : Int) (w w' : World) : Prop where
  orders : w'.ctx.orders = w.ctx.orders ∨
    (∃ o, w'.ctx.orders.items = w.ctx.orders.items ++ [o] ∧ o.tableId = tableId) ∨
    ∃ i o, w.ctx.orders.items[i]? = some o ∧ o.tableId = tableId ∧
      w'.ctx.orders.items = w.ctx.orders.items.set i (o.withStatus .cancelled)
  staffCallAt : ∀ k, k ≠ tableId → w'.ctx.staffCallAt k = w.ctx.staffCallAt k
  lastStaffMessage : w'.ctx.lastStaffMessage = w.ctx.lastStaffMessage ∨
    w'.ctx.lastStaffMessage = clip 160 (lit "직원 호출: 테이블 " ++ fmtInt tableId)
  sent : ∃ out, w'.sent = w.sent ++ out ∧ ∀ p ∈ out, isStaffCall p.2 = true →
    p.2 = protoBuildStaffBroadcast tableId ++ lit "\n"

theorem isStaffCall_reply (r : Reply) : isStaffCall r.text = false := by
  cases r with
  | menu cat => exact startsWith_menuReply rfl (fun _ => rfl) cat
  | _ => rfl

theorem isStaffCall_orderEvent (o : Order) : isStaffCall (orderEvent o) = false := by
  unfold orderEvent
  rw [build_eq_clip]
  rfl

/-- A broadcast of one text. -/
theorem sent_broadcast {tableId : Int} {w w' : World} {text : Bytes}
    (hsent : w'.sent = w.sent ++ w.ctx.receivers.map fun fd => (fd, text))
    (htext : isStaffCall text = true → text = protoBuildStaffBroadcast tableId ++ lit "\n") :
    ∃ out, w'.sent = w.sent ++ out ∧ ∀ p ∈ out, isStaffCall p.2 = true →
      p.2 = protoBuildStaffBroadcast tableId ++ lit "\n" := by
  refine ⟨_, hsent, ?_⟩
  intro p hp
  obtain ⟨fd, -, rfl⟩ := List.mem_map.mp hp
  exact htext

theorem OwnTable.refl (tableId : Int) (w : World) : OwnTable tableId w w where
  orders := .inl rfl
  staffCallAt := fun _ _ => rfl
  lastStaffMessage := .inl rfl
  sent := ⟨[], by simp, by simp⟩

theorem OwnTable.created {tableId : Int} {w w' : World} {o : Order} (h : Created .wrap w w' o)
    (htable : o.tableId = tableId) : OwnTable tableId w w' where
  orders := .inr (.inl ⟨o, h.orders, htable⟩)
  staffCallAt := by
    intro k _
    rw [h.ctx]
  lastStaffMessage := .inl (by rw [h.ctx])
  sent := by
    apply sent_broadcast h.sent
    intro hcall
    rw [isStaffCall_orderEvent] at hcall
    cases hcall

theorem OwnTable.cancelled {tableId : Int} {w w' : World} {i : Nat} {o : Order}
    (h : Moved .wrap w w' i o .cancelled) (htable : o.tableId = tableId) : OwnTable tableId w w' where
  orders := .inr (.inr ⟨i, o, h.found, htable, h.orders⟩)
  staffCallAt := by
    intro k _
    rw [h.ctx]
  lastStaffMessage := .inl (by rw [h.ctx])
  sent := by
    apply sent_broadcast h.sent
    intro hcall
    rw [isStaffCall_orderEvent] at hcall
    cases hcall

/-! ## The steps of the thread -/

/-- What the thread may have left to do. -/
inductive Op.OwnWork (fd tableId : Int) : Op → Prop
  | reply (r : Reply) : OwnWork fd tableId (.reply fd r)
  | staffCall : OwnWork fd tableId (.staffCall tableId)
  | staffTouch : OwnWork fd tableId .staffTouch
  | staffBroadcast : OwnWork fd tableId (.staffBroadcast tableId)
  | staffLog : OwnWork fd tableId (.staffLog tableId)

theorem Op.OwnWork.ownTable {fd tableId : Int} {op : Op} (h : op.OwnWork fd tableId) (env : Env)
    (w : World) : OwnTable tableId w (step .wrap (env, op) w) := by
  cases h with
  | reply r =>
    refine ⟨.inl rfl, fun _ _ => rfl, .inl rfl, [(fd, r.text)], rfl, ?_⟩
    intro p hp hcall
    rw [List.mem_singleton.mp hp, isStaffCall_reply] at hcall
    cases hcall
  | staffCall =>
    refine ⟨.inl rfl, ?_, .inr rfl, [], ?_, by simp⟩
    · intro k hk
      show (if 0 < tableId ∧ tableId ≤ MAX_TABLES then
        Function.update w.ctx.staffCallAt tableId env.now else w.ctx.staffCallAt) k = _
      split
      · exact Function.update_of_ne hk _ _
      · rfl
    · exact (List.append_nil _).symm
  | staffTouch =>
    refine ⟨.inl rfl, fun _ _ => rfl, .inl rfl, [], ?_, by simp⟩
    exact (List.append_nil _).symm
  | staffBroadcast => exact ⟨.inl rfl, fun _ _ => rfl, .inl rfl, sent_broadcast rfl fun _ => rfl⟩
  | staffLog =>
    have hctx : (step .wrap (env, .staffLog tableId) w).ctx = w.ctx := appendOrdersMeta_ctx env w _
    refine ⟨.inl ?_, ?_, .inl ?_, [], ?_, by simp⟩
    · rw [hctx]
    · intro k _
      rw [hctx]
    · rw [hctx]
    · rw [List.append_nil]
      exact appendOrdersMeta_sent env w _

/-- A staff call that the line makes is one for this table. -/
def CallsFor (tableId : Int) (line : Bytes) : Prop :=
  startsWith (lit "CALL_STAFF|") line = true → ∀ k, protoParseCallStaff line = .ok k → k = tableId

/-- One line: the request stays with the table, and so does what is left to do. -/
theorem clientTurn_ownTable (env : Env) (w : World) (fd tableId : Int) {line : Bytes}
    (hcalls : CallsFor tableId line) :
    OwnTable tableId w (clientTurn .wrap env w fd .table tableId line).2 ∧
      ∀ op ∈ (clientTurn .wrap env w fd .table tableId line).1, op.OwnWork fd tableId := by
  have hreply (r : Reply) : ∀ op ∈ [Op.reply fd r], op.OwnWork fd tableId := by
    intro op hop
    rw [List.mem_singleton.mp hop]
    exact .reply r
  have hsame := OwnTable.refl tableId w
  have hturn := clientTurn_cases .wrap env w fd .table tableId line
  generalize clientTurn .wrap env w fd .table tableId line = turn at hturn ⊢
  cases hturn with
  | menu _ => exact ⟨hsame, hreply _⟩
  | replied r _ => exact ⟨hsame, hreply r⟩
  | ordered _ _ =>
    refine ⟨?_, hreply _⟩
    rcases hstep : orderCreateStep .wrap env w line tableId with ⟨r, w'⟩
    rcases orderCreateStep_cases .wrap hstep with ⟨-, rfl⟩ |
      ⟨parsed, lines, cart, o, -, -, -, ho, -, hcreated⟩
    · exact hsame
    · apply OwnTable.created hcreated
      rw [orderBuildFromCart_eq] at ho
      split at ho
      · cases ho
      · obtain rfl := Except.ok.inj ho
        rfl
  | cancelled _ =>
    refine ⟨?_, hreply _⟩
    rcases hstep : orderCancelStep .wrap w line tableId with ⟨r, w'⟩
    rcases orderCancelStep_cases .wrap hstep with ⟨-, rfl⟩ | ⟨i, o, -, htable, -, -, -, hm⟩
    · exact hsame
    · exact OwnTable.cancelled hm htable
  | updated hkind => cases hkind
  | called tbl hcall _ hparse =>
    -- the condition on the line is used here and nowhere else
    obtain rfl := hcalls hcall tbl hparse
    refine ⟨hsame, ?_⟩
    intro op hop
    simp only [List.mem_cons, List.not_mem_nil, or_false] at hop
    rcases hop with rfl | rfl | rfl | rfl | rfl
    · exact .staffCall
    · exact .staffTouch
    · exact .staffBroadcast
    · exact .staffLog
    · exact .reply _

/-! ## Runs -/

/-- Whatever lines the client sends, with anything between them: if its staff calls are for its own
table, no step of its thread touches another table. -/
theorem session_ownTable {fd tableId : Int} (w : World) {as : List SessionAction}
    (hcalls : ∀ env line, SessionAction.line env line ∈ as → CallsFor tableId line) :
    ∀ pre a post, as = pre ++ a :: post → a.isOwn = true →
      OwnTable tableId (runSession fd tableId ⟨w, []⟩ pre).world
        (runSession fd tableId ⟨w, []⟩ (pre ++ [a])).world := by
  -- what is left to do is own work at every point of the run
  have htodo (pre : List SessionAction)
      (hpre : ∀ env line, SessionAction.line env line ∈ pre → CallsFor tableId line) :
      ∀ op ∈ (runSession fd tableId ⟨w, []⟩ pre).todo, op.OwnWork fd tableId := by
    refine Runs.run_invariant
      (P := fun a : SessionAction => ∀ env line, a = .line env line → CallsFor tableId line)
      (I := fun s : Session => ∀ op ∈ s.todo, op.OwnWork fd tableId) ?_ (by simp) ?_
    · intro a s ha hs
      cases a with
      | other a => exact hs
      | line env line =>
        simp only [sessionStep]
        split
        · exact (clientTurn_ownTable env s.world fd tableId (ha env line rfl)).2
        · exact hs
      | work env =>
        simp only [sessionStep]
        split
        · exact hs
        · next op todo heq =>
          intro op' hop'
          exact hs op' (by rw [heq]; exact List.mem_cons_of_mem _ hop')
    · intro a ha env line heq
      exact hpre env line (heq ▸ ha)
  rintro pre a post rfl hown
  have hrun : runSession fd tableId ⟨w, []⟩ (pre ++ [a]) =
      sessionStep fd tableId a (runSession fd tableId ⟨w, []⟩ pre) := Runs.run_concat _ _ _ _
  rw [hrun]
  let s := runSession fd tableId ⟨w, []⟩ pre
  have hs : ∀ op ∈ s.todo, op.OwnWork fd tableId := by
    apply htodo
    intro env line hmem
    exact hcalls env line (List.mem_append_left _ hmem)
  show OwnTable tableId s.world (sessionStep fd tableId a s).world
  cases a with
  | other a => cases hown
  | line env line =>
    have hline : CallsFor tableId line := hcalls env line (by simp)
    simp only [sessionStep]
    split
    · exact (clientTurn_ownTable env s.world fd tableId hline).1
    · exact OwnTable.refl tableId s.world
  | work env =>
    simp only [sessionStep]
    split
    · exact OwnTable.refl tableId s.world
    · next op todo heq => exact (hs op (by rw [heq]; simp)).ownTable env s.world

/-- The client of table 1 calls the staff, to this table. -/
def callFor (tableId : Int) : List SessionAction :=
  [.line (Env.fair 5) (lit "CALL_STAFF|table=" ++ fmtInt tableId), .work (Env.fair 5)]

theorem session_ownTable_callFor :
    let w := (serverLoadPersistent (World.boot none none)).2
    ∀ pre a post, callFor 1 = pre ++ a :: post → a.isOwn = true →
      OwnTable 1 (runSession 3 1 ⟨w, []⟩ pre).world (runSession 3 1 ⟨w, []⟩ (pre ++ [a])).world := by
  intro w
  apply session_ownTable w
  intro env line hmem
  simp only [callFor, List.mem_cons, SessionAction.line.injEq, reduceCtorEq, List.not_mem_nil,
    or_false] at hmem
  obtain ⟨-, rfl⟩ := hmem
  intro _ k hk
  have hparsed : protoParseCallStaff (lit "CALL_STAFF|table=" ++ fmtInt 1) = .ok 1 := by
    decide +kernel
  rw [hparsed] at hk
  exact (Except.ok.inj hk).symm

theorem session_otherTable :
    ¬ ∀ (fd tableId : Int) (w : World) (as : List SessionAction) (pre : List SessionAction)
      (a : SessionAction) (post : List SessionAction), as = pre ++ a :: post → a.isOwn = true →
        OwnTable tableId (runSession fd tableId ⟨w, []⟩ pre).world
          (runSession fd tableId ⟨w, []⟩ (pre ++ [a])).world := by
  intro h
  let w := firstStart
  have hown := h 3 1 w (callFor 2) ((callFor 2).take 1) (.work (Env.fair 5)) [] rfl rfl
  have hcall := hown.staffCallAt 2 (by decide)
  have hbefore : (runSession 3 1 ⟨w, []⟩ ((callFor 2).take 1)).world.ctx.staffCallAt 2 = 0 := by
    decide +kernel
  have hafter : (runSession 3 1 ⟨w, []⟩
      ((callFor 2).take 1 ++ [.work (Env.fair 5)])).world.ctx.staffCallAt 2 = 5 := by
    decide +kernel
  rw [hbefore, hafter] at hcall
  cases hcall

end TableOrder
