import TableOrder.Server.Typed

/-!
# The sales log

`SaleRecord` is what a SALE line means; `SaleRecord.text` prints it and `text_inj` reads it back.
A C order's line is the text of its record: the buffer test of the detail loop never ends it
(`saleLine_eq`). `Ledger` ties the lines a run appended to the PAID orders, and every run in which
the appends succeed keeps it (`ledger_runOps`).
-/

namespace TableOrder

open CLib

/-! ## What a SALE line says -/

structure SaleRecord where
  orderId : Int
  tableId : Int
  total : Int
  ts : Int
  detail : List (Int × Int)
  deriving DecidableEq

def SaleRecord.text (r : SaleRecord) : Bytes :=
  lit "SALE id=" ++ (fmtInt r.orderId ++ (lit " table=" ++ (fmtInt r.tableId ++
    (lit " total=" ++ (fmtInt r.total ++ (lit " ts=" ++ (fmtInt r.ts ++
      (lit " detail=" ++ (pairsText r.detail ++ lit "\n")))))))))

theorem pairsTail_inj {ps qs : List (Int × Int)}
    (h : pairsTail ps ++ lit "\n" = pairsTail qs ++ lit "\n") : ps = qs := by
  have hends (rs : List (Int × Int)) : EndsNumber (pairsTail rs ++ lit "\n") := by
    cases rs with
    | nil => exact EndsNumber.cons (by decide) []
    | cons r rs => exact EndsNumber.cons (by decide) _
  induction ps generalizing qs with
  | nil =>
    cases qs with
    | nil => rfl
    | cons q qs => exact absurd (List.cons.inj h).1 (by decide)
  | cons p ps ih =>
    cases qs with
    | nil => exact absurd (List.cons.inj h).1 (by decide)
    | cons q qs =>
      have htail : fmtInt p.1 ++ ch ':' :: (fmtInt p.2 ++ (pairsTail ps ++ lit "\n")) =
          fmtInt q.1 ++ ch ':' :: (fmtInt q.2 ++ (pairsTail qs ++ lit "\n")) := by
        simpa [pairsTail, pairText] using h
      obtain ⟨h1, htail⟩ := fmtInt_append_inj (EndsNumber.cons (by decide) _)
        (EndsNumber.cons (by decide) _) htail
      obtain ⟨h2, htail⟩ := fmtInt_append_inj (hends ps) (hends qs) (List.cons.inj htail).2
      rw [ih htail, Prod.ext h1 h2]

/-- A number never starts a line break. -/
theorem newline_ne_fmtInt (x : Int) (s : Bytes) : lit "\n" ≠ fmtInt x ++ s := by
  intro h
  have hnot : ch '\n' ∉ fmtInt x := not_mem_fmtInt (by decide) (by decide) x
  cases hx : fmtInt x with
  | nil => exact fmtInt_ne_nil x hx
  | cons b r =>
    rw [hx] at h hnot
    have hb : ch '\n' = b := (List.cons.inj h).1
    exact hnot (by simp [hb])

theorem pairsText_inj {ps qs : List (Int × Int)}
    (h : pairsText ps ++ lit "\n" = pairsText qs ++ lit "\n") : ps = qs := by
  cases ps with
  | nil =>
    cases qs with
    | nil => rfl
    | cons q qs =>
      simp only [pairsText, pairText, List.nil_append, List.append_assoc] at h
      exact absurd h (newline_ne_fmtInt _ _)
  | cons p ps =>
    cases qs with
    | nil =>
      simp only [pairsText, pairText, List.nil_append, List.append_assoc] at h
      exact absurd h.symm (newline_ne_fmtInt _ _)
    | cons q qs =>
      -- a comma before both makes them tails
      apply pairsTail_inj
      have hcomma (r : Int × Int) (rs : List (Int × Int)) :
          pairsTail (r :: rs) ++ lit "\n" = ch ',' :: (pairsText (r :: rs) ++ lit "\n") := by
        simp [pairsTail, pairsText]
      rw [hcomma, hcomma, h]

/-- A SALE line has one reading. -/
theorem SaleRecord.text_inj {r r' : SaleRecord} (h : r.text = r'.text) : r = r' := by
  have hsp (s t : Bytes) : EndsNumber (ch ' ' :: s ++ t) := EndsNumber.cons (by decide) _
  unfold SaleRecord.text at h
  obtain ⟨h1, h⟩ := fmtInt_append_inj (hsp _ _) (hsp _ _) (List.append_cancel_left h)
  obtain ⟨h2, h⟩ := fmtInt_append_inj (hsp _ _) (hsp _ _) (List.append_cancel_left h)
  obtain ⟨h3, h⟩ := fmtInt_append_inj (hsp _ _) (hsp _ _) (List.append_cancel_left h)
  obtain ⟨h4, h⟩ := fmtInt_append_inj (hsp _ _) (hsp _ _) (List.append_cancel_left h)
  have h5 := pairsText_inj (List.append_cancel_left h)
  cases r
  cases r'
  simp only at h1 h2 h3 h4 h5
  rw [h1, h2, h3, h4, h5]

/-! ## The line of an order -/

/-- The sale of an order at a time: its id, table and total, and the `menu_id:qty` pairs of all its
lines in order. -/
def saleRecord (o : Order) (ts : Int) : SaleRecord where
  orderId := o.orderId
  tableId := o.tableId
  total := o.totalPrice
  ts := ts
  detail := o.items.items.map fun it => (it.menuId, it.qty)

theorem length_saleItem_le {it : OrderLineItem} (hfits : it.Fits) (i : Nat) :
    (saleItem i it).length ≤ 24 := by
  have h1 := length_fmtInt_le hfits.menuId
  have h2 := length_fmtInt_le hfits.qty
  have hsep : (if i = 0 then [] else lit ",").length ≤ 1 := by
    split <;> decide
  have hcolon : (lit ":").length = 1 := rfl
  simp only [saleItem, List.length_append, hcolon]
  omega

/-- The loop runs to its end when every line fits before the margin. -/
theorem saleDetail_eq {slog : Bytes} {its : List OrderLineItem} (hfits : ∀ it ∈ its, it.Fits)
    (hroom : slog.length + 24 * its.length + 40 < MAX_PROTO_LINE) {i : Nat} (hi : i ≠ 0) :
    saleDetail slog i its = slog ++ pairsTail (its.map fun it => (it.menuId, it.qty)) := by
  induction its generalizing slog i with
  | nil => simp [saleDetail, pairsTail]
  | cons it its ih =>
    have hitem := length_saleItem_le (hfits it (by simp)) i
    rw [List.length_cons] at hroom
    have hnext : (slog ++ saleItem i it).length + 24 * its.length + 40 < MAX_PROTO_LINE := by
      rw [List.length_append]
      omega
    rw [saleDetail, if_pos (by omega), ih (fun v hv => hfits v (by simp [hv])) hnext (by omega)]
    have hlit : lit ":" = [ch ':'] := rfl
    have hcomma : lit "," = [ch ','] := rfl
    simp [saleItem, hi, pairsTail, pairText, hlit, hcomma]

theorem saleDetail_zero {slog : Bytes} {its : List OrderLineItem} (hfits : ∀ it ∈ its, it.Fits)
    (hroom : slog.length + 24 * its.length + 40 < MAX_PROTO_LINE) :
    saleDetail slog 0 its = slog ++ pairsText (its.map fun it => (it.menuId, it.qty)) := by
  cases its with
  | nil => simp [saleDetail, pairsText]
  | cons it its =>
    have hitem := length_saleItem_le (hfits it (by simp)) 0
    rw [List.length_cons] at hroom
    have hnext : (slog ++ saleItem 0 it).length + 24 * its.length + 40 < MAX_PROTO_LINE := by
      rw [List.length_append]
      omega
    rw [saleDetail, if_pos (by omega),
      saleDetail_eq (fun v hv => hfits v (by simp [hv])) hnext (by omega)]
    have hlit : lit ":" = [ch ':'] := rfl
    simp [saleItem, pairsText, pairText, hlit]

theorem length_saleHeader_le {o : Order} (hfits : o.Fits) {ts : Int} (hts : FitsLong ts) :
    (saleHeader o.orderId o ts).length ≤ 100 := by
  have h1 := length_fmtInt_le hfits.orderId
  have h2 := length_fmtInt_le hfits.tableId
  have h3 := length_fmtInt_le hfits.totalPrice
  have h4 := length_fmtLong_le hts
  have e1 : (lit "SALE id=").length = 8 := rfl
  have e2 : (lit " table=").length = 7 := rfl
  have e3 : (lit " total=").length = 7 := rfl
  have e4 : (lit " ts=").length = 4 := rfl
  have e5 : (lit " detail=").length = 8 := rfl
  simp only [saleHeader, List.length_append, e1, e2, e3, e4, e5]
  omega

/-- The line of a C order is complete. -/
theorem saleLine_eq {o : Order} (hfits : o.Fits) {ts : Int} (hts : FitsLong ts) :
    saleLine o.orderId o ts = (saleRecord o ts).text := by
  have hheader := length_saleHeader_le hfits hts
  have hbound : o.items.items.length ≤ 32 := o.items.bound
  have hpairs : (pairsText (o.items.items.map fun it => (it.menuId, it.qty))).length ≤ 768 := by
    apply length_pairsText_le
    · intro p hp
      obtain ⟨it, hit, rfl⟩ := List.mem_map.mp hp
      exact ⟨(hfits.items it hit).menuId, (hfits.items it hit).qty⟩
    · rwa [List.length_map]
  have hroom : (saleHeader o.orderId o ts).length + 24 * o.items.items.length + 40 <
      MAX_PROTO_LINE := by
    show _ < 16384
    omega
  have hnl : (lit "\n").length = 1 := rfl
  have hlen : (saleHeader o.orderId o ts ++
      pairsText (o.items.items.map fun it => (it.menuId, it.qty))).length ≤ 868 := by
    rw [List.length_append]
    omega
  have hclip : clip MAX_PROTO_LINE (saleHeader o.orderId o ts ++
      pairsText (o.items.items.map fun it => (it.menuId, it.qty))) = _ :=
    clip_eq_self (by show _ < 16384; omega)
  rw [saleLine, saleDetail_zero hfits.items hroom, hclip]
  rw [clip_eq_self (by show _ < 16384; rw [List.length_append, hnl]; omega)]
  simp only [saleHeader, SaleRecord.text, saleRecord, List.append_assoc]

/-! ## The ledger -/

def paidOrders (orders : List Order) : List Order := orders.filter (·.status == .paid)

/-- The appended lines are the records of the PAID orders, each once and in the order of sale. -/
def Ledger (log : List Bytes) (w : World) : Prop :=
  ∃ sold : List (Order × Int),
    w.salesLog = log ++ sold.map (fun s => (saleRecord s.1 s.2).text) ∧
    (sold.map (·.1)).Perm (paidOrders w.ctx.orders.items)

/-- The append takes every line of the program whole. -/
def AppendResult.Whole (r : AppendResult) : Prop := ∃ n, r = .writes n ∧ MAX_PROTO_LINE ≤ n

theorem appendFile_whole {r : AppendResult} (h : r.Whole) (file : List Bytes) {line : Bytes}
    (hline : line.length ≤ MAX_PROTO_LINE) : appendFile r file line = (file ++ [line], true) := by
  obtain ⟨n, rfl, hn⟩ := h
  show (if line.length ≤ n then _ else _) = _
  rw [if_pos (by omega)]

theorem length_saleLine_le (orderId : Int) (o : Order) (ts : Int) :
    (saleLine orderId o ts).length ≤ MAX_PROTO_LINE :=
  Nat.le_of_lt (length_clip_lt (by decide) _)

/-- An operation that touches neither the PAID orders nor the log. -/
theorem Ledger.frame {log : List Bytes} {w w' : World} (h : Ledger log w)
    (hsales : w'.salesLog = w.salesLog)
    (hpaid : paidOrders w'.ctx.orders.items = paidOrders w.ctx.orders.items) : Ledger log w' := by
  obtain ⟨sold, hlog, hperm⟩ := h
  exact ⟨sold, hsales.trans hlog, by rw [hpaid]; exact hperm⟩

theorem Ledger.effect {log : List Bytes} {env : Env} {op : Op} {w w' : World} {failed : Bool}
    (h : Ledger log w) (hw : WorldFits w) (hnow : FitsLong env.now) (hwhole : env.salesLog.Whole)
    (he : Effect .wrap env op w w' failed) : Ledger log w' := by
  cases he with
  | quiet failed lines horders hclients hnext hsales =>
    exact h.frame hsales (by rw [horders])
  | created o hbuilds hc =>
    refine h.frame hc.salesLog ?_
    rw [hc.orders, paidOrders, List.filter_append]
    simp [hc.waiting, paidOrders]
  | cooked i o st hvalid hsales hm =>
    refine h.frame hsales ?_
    obtain ⟨hcur, hnew⟩ := not_terminal_of_transition hvalid
    rw [hm.orders]
    apply filter_set_of_not hm.found
    · cases hst : o.status <;> first | rfl | (rw [hst] at hcur; cases hcur)
    · cases hst : st <;> first | rfl | (rw [hst] at hnew; cases hnew)
  | cancelled i o hst hop hsales hm =>
    refine h.frame hsales ?_
    rw [hm.orders]
    exact filter_set_of_not hm.found (by rw [hst]; rfl) rfl
  | paid i o hop hst hsales hm =>
    obtain ⟨sold, hlog, hperm⟩ := h
    have ho : o ∈ w.ctx.orders.items := List.mem_of_getElem? hm.found
    refine ⟨sold ++ [(o.withStatus .paid, env.now)], ?_, ?_⟩
    · rw [hsales, appendFile_whole hwhole _ (length_saleLine_le _ _ _),
        saleLine_eq (hw.orders o ho) hnow, hlog, List.map_append, List.append_assoc]
      rfl
    · have hadd : (paidOrders w'.ctx.orders.items).Perm
          (o.withStatus .paid :: paidOrders w.ctx.orders.items) := by
        rw [hm.orders]
        exact filter_set_perm hm.found (by rw [hst]; rfl) rfl
      rw [List.map_append]
      exact (List.perm_append_singleton _ _).trans ((hperm.cons _).trans hadd.symm)
  | entered fd kind tableId heq =>
    rw [heq]
    exact h.frame rfl (by simp)
  | left fd heq =>
    rw [heq]
    exact h.frame rfl (by simp)

/-- The log append of this operation, if it makes one, succeeds. -/
def Action.Logs (a : Action) : Prop := a.1.salesLog.Whole

theorem ledger_runOps {w : World} (hstart : Started w) {as : List Action}
    (hfits : ∀ a ∈ as, a.Fits) (hlogs : ∀ a ∈ as, a.Logs) :
    Ledger w.salesLog (runOps .wrap w as) := by
  have hinit : WorldFits w ∧ Ledger w.salesLog w := by
    refine ⟨started_fits hstart, [], by simp, ?_⟩
    rw [started_orders hstart]
    exact List.Perm.nil
  have hstep : ∀ (a : Action) (v : World), a.Fits ∧ a.Logs →
      WorldFits v ∧ Ledger w.salesLog v →
      WorldFits (step .wrap a v) ∧ Ledger w.salesLog (step .wrap a v) := by
    rintro a v ⟨hf, hl⟩ ⟨hv, hledger⟩
    have heffect := a.2.effect .wrap a.1 v
    exact ⟨fits_effect hf hv heffect, hledger.effect hv hf.now hl heffect⟩
  exact (Runs.run_invariant hstep hinit (fun a ha => ⟨hfits a ha, hlogs a ha⟩)).2

/-! ## What the log says -/

/-- The lines appended to the sales log agree with the orders: an order is PAID exactly when one
line carries its id, every line is the complete record of a PAID order, and the totals add up to
the same sum. -/
structure SalesMatch (lines : List Bytes) (orders : List Order) : Prop where
  paid_iff : ∀ o ∈ orders, o.status = .paid ↔
    ∃! i : Nat, ∃ r : SaleRecord, lines[i]? = some r.text ∧ r.orderId = o.orderId
  record : ∀ line ∈ lines, ∃ o ∈ orders, o.status = .paid ∧
    ∃ ts, line = (saleRecord o ts).text
  total : ∃ records : List SaleRecord, lines = records.map (·.text) ∧
    (records.map (·.total)).sum = ((paidOrders orders).map (·.totalPrice)).sum

theorem Ledger.salesMatch {log : List Bytes} {w : World} (h : Ledger log w)
    (hnd : (w.ctx.orders.items.map (·.orderId)).Nodup) :
    ∃ lines, w.salesLog = log ++ lines ∧ SalesMatch lines w.ctx.orders.items := by
  obtain ⟨sold, hlog, hperm⟩ := h
  refine ⟨_, hlog, ?_⟩
  have hsold : ∀ s ∈ sold, s.1 ∈ w.ctx.orders.items ∧ s.1.status = .paid := by
    intro s hs
    have hmem := hperm.mem_iff.mp (List.mem_map_of_mem (f := fun s : Order × Int => s.1) hs)
    obtain ⟨ho, hst⟩ := List.mem_filter.mp hmem
    exact ⟨ho, by simpa using hst⟩
  -- distinct orders have distinct ids, so the sold ids are distinct too
  have hids : (sold.map fun s => s.1.orderId).Nodup := by
    have hpaid : ((paidOrders w.ctx.orders.items).map (·.orderId)).Nodup :=
      hnd.sublist (List.filter_sublist.map _)
    have := (hperm.map (·.orderId)).nodup_iff.mpr hpaid
    rwa [List.map_map] at this
  have hline : ∀ (i : Nat) (r : SaleRecord),
      (sold.map fun s => (saleRecord s.1 s.2).text)[i]? = some r.text →
      ∃ s, sold[i]? = some s ∧ r = saleRecord s.1 s.2 := by
    intro i r hi
    rw [List.getElem?_map, Option.map_eq_some_iff] at hi
    obtain ⟨s, hs, htext⟩ := hi
    exact ⟨s, hs, (SaleRecord.text_inj htext).symm⟩
  constructor
  · intro o ho
    constructor
    · intro hst
      have hmem : o ∈ sold.map (·.1) := by
        apply hperm.mem_iff.mpr
        exact List.mem_filter.mpr ⟨ho, by simp [hst]⟩
      obtain ⟨s, hs, rfl⟩ := List.mem_map.mp hmem
      obtain ⟨i, hi⟩ := List.mem_iff_getElem?.mp hs
      refine ⟨i, ⟨saleRecord s.1 s.2, by rw [List.getElem?_map, hi]; rfl, rfl⟩, ?_⟩
      rintro j ⟨r, hj, hid⟩
      obtain ⟨s', hs', rfl⟩ := hline j r hj
      obtain ⟨hlt, hget⟩ := List.getElem?_eq_some_iff.mp hi
      obtain ⟨hlt', hget'⟩ := List.getElem?_eq_some_iff.mp hs'
      have hbi : i < (sold.map fun s => s.1.orderId).length := by simpa using hlt
      have hbj : j < (sold.map fun s => s.1.orderId).length := by simpa using hlt'
      have hsame : (sold.map fun s => s.1.orderId)[j] = (sold.map fun s => s.1.orderId)[i] := by
        rw [List.getElem_map, List.getElem_map, hget, hget']
        exact hid
      exact hids.getElem_inj_iff.mp hsame
    · rintro ⟨i, ⟨r, hi, hid⟩, -⟩
      obtain ⟨s, hs, rfl⟩ := hline i r hi
      obtain ⟨hmem, hst⟩ := hsold s (List.mem_of_getElem? hs)
      have : s.1 = o := List.inj_on_of_nodup_map hnd hmem ho hid
      rw [← this]
      exact hst
  · intro line hl
    obtain ⟨s, hs, rfl⟩ := List.mem_map.mp hl
    obtain ⟨hmem, hst⟩ := hsold s hs
    exact ⟨s.1, hmem, hst, s.2, rfl⟩
  · refine ⟨sold.map fun s => saleRecord s.1 s.2, by rw [List.map_map]; rfl, ?_⟩
    have hsum := (hperm.map (·.totalPrice)).sum_eq
    rw [List.map_map] at hsum ⊢
    exact hsum

end TableOrder
