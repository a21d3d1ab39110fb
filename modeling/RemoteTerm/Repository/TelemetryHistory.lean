import Mathlib.Data.List.Induction
import RemoteTerm.Library.Retention
import RemoteTerm.Library.Text

/-!
# The telemetry history

`_TelemetryHistory`: the snapshots of each node, without those older than thirty days when
the node was last recorded, and at most a thousand of them. A cut after every snapshot leaves
what one cut of everything that was ever recorded leaves.

## Implementation notes

The JSON of a snapshot is a parameter. Rows of one timestamp come in an order that the engine
chooses by their rowids; `tie` is that choice. The foreign key to the contacts is left out: a
snapshot is recorded for a stored contact, and no contact is deleted here.
-/

namespace RemoteTerm

open Library

/-- `_MAX_AGE_SECONDS`. -/
def maxAgeSeconds : Int := 30 * 86400

/-- `_MAX_ENTRIES_PER_NODE`. -/
def maxEntriesPerNode : Nat := 1000

/-- A row of a telemetry history table. -/
structure TelemetryRow (δ : Type) where
  id : Nat
  publicKey : Text
  timestamp : Int
  data : δ
  deriving DecidableEq

/-- A call of `record`, and the clock at its time. -/
structure TelemetryRecord (δ : Type) where
  now : Int
  publicKey : Text
  timestamp : Int
  data : δ

/-- A telemetry history table. -/
structure TelemetryHistory (δ : Type) where
  rows : List (TelemetryRow δ) := []
  nextId : Nat := 1

variable {δ : Type} {tie : Nat → Int}

/-- `ORDER BY timestamp DESC`. -/
def TelemetryRow.recency (tie : Nat → Int) (r : TelemetryRow δ) : Intᵒᵈ ×ₗ Int :=
  toLex (OrderDual.toDual r.timestamp, tie r.id)

/-- The oldest timestamp that a record keeps. -/
def TelemetryRecord.cutoff (r : TelemetryRecord δ) : Int := r.now - maxAgeSeconds

/-- The row of a record. -/
def TelemetryRecord.row (r : TelemetryRecord δ) (id : Nat) : TelemetryRow δ where
  id := id
  publicKey := r.publicKey
  timestamp := r.timestamp
  data := r.data

namespace TelemetryHistory

/-- The rows of a node. -/
def ofNode (t : TelemetryHistory δ) (publicKey : Text) : List (TelemetryRow δ) :=
  t.rows.filter fun r => r.publicKey = publicKey

/-- `record`: the insert, the deletion of what is too old, and that of what is too much. -/
def record (tie : Nat → Int) (t : TelemetryHistory δ) (r : TelemetryRecord δ) :
    TelemetryHistory δ :=
  let inserted := t.rows ++ [r.row t.nextId]
  let recent := inserted.filter fun q => !(q.publicKey = r.publicKey ∧ q.timestamp < r.cutoff)
  let newest := ((orderBy (TelemetryRow.recency tie)
    (recent.filter fun q => q.publicKey = r.publicKey)).take maxEntriesPerNode).map
      TelemetryRow.id
  { rows := recent.filter fun q => !(q.publicKey = r.publicKey ∧ q.id ∉ newest)
    nextId := t.nextId + 1 }

/-- The table after some records. -/
def run (tie : Nat → Int) (records : List (TelemetryRecord δ)) : TelemetryHistory δ :=
  records.foldl (record tie) {}

/-- `get_history`. -/
def getHistory (tie : Nat → Int) (t : TelemetryHistory δ) (publicKey : Text)
    (sinceTimestamp : Int) : List (TelemetryRow δ) :=
  (orderBy (TelemetryRow.recency tie)
    ((t.ofNode publicKey).filter fun r => sinceTimestamp ≤ r.timestamp)).reverse

/-- `get_latest`. -/
def getLatest (tie : Nat → Int) (t : TelemetryHistory δ) (publicKey : Text) :
    Option (TelemetryRow δ) :=
  (orderBy (TelemetryRow.recency tie) (t.ofNode publicKey)).head?

end TelemetryHistory

/-! ### The history without a bound -/

/-- Every row that was ever recorded. -/
def recordedRows (records : List (TelemetryRecord δ)) : List (TelemetryRow δ) :=
  records.mapIdx fun i r => r.row (i + 1)

/-- No record of its node found the row too old, its own record included. -/
def staysRecent (records : List (TelemetryRecord δ)) (r : TelemetryRow δ) : Bool :=
  (records.drop (r.id - 1)).all fun q => q.publicKey ≠ r.publicKey ∨ q.cutoff ≤ r.timestamp

/-- The rows of a node that were recorded and stayed recent. -/
def recentRows (records : List (TelemetryRecord δ)) (publicKey : Text) :
    List (TelemetryRow δ) :=
  (recordedRows records).filter fun r => r.publicKey = publicKey && staysRecent records r

theorem recordedRows_append (records : List (TelemetryRecord δ)) (r : TelemetryRecord δ) :
    recordedRows (records ++ [r]) = recordedRows records ++ [r.row (records.length + 1)] := by
  simp [recordedRows]

theorem id_of_mem_recordedRows {records : List (TelemetryRecord δ)} {r : TelemetryRow δ}
    (h : r ∈ recordedRows records) : 1 ≤ r.id ∧ r.id ≤ records.length := by
  obtain ⟨i, hi, rfl⟩ := List.mem_mapIdx.mp h
  exact ⟨Nat.succ_pos i, hi⟩

theorem recordedRows_ids (records : List (TelemetryRecord δ)) :
    (recordedRows records).Pairwise fun a b => a.id < b.id := by
  induction records using List.reverseRecOn with
  | nil => exact List.Pairwise.nil
  | append_singleton records r ih =>
      rw [recordedRows_append, List.pairwise_append]
      refine ⟨ih, List.pairwise_singleton _ _, fun a ha b hb => ?_⟩
      obtain rfl := List.mem_singleton.mp hb
      exact Nat.lt_succ_of_le (id_of_mem_recordedRows ha).2

/-- Rows with distinct rowids come at distinct places. -/
theorem recency_nodup (htie : Function.Injective tie) {rows : List (TelemetryRow δ)}
    (h : rows.Pairwise fun a b => a.id < b.id) :
    (rows.map (TelemetryRow.recency tie)).Nodup := by
  refine List.pairwise_map.mpr (h.imp fun hlt heq => ?_)
  have hid := htie (congrArg (fun k => (ofLex k).2) heq)
  exact hlt.ne hid

/-- A later record only checks the age of the rows of its own node. -/
theorem staysRecent_append {records : List (TelemetryRecord δ)} {r : TelemetryRow δ}
    (h : r.id - 1 ≤ records.length) (q : TelemetryRecord δ) :
    staysRecent (records ++ [q]) r =
      (staysRecent records r && decide (q.publicKey ≠ r.publicKey ∨ q.cutoff ≤ r.timestamp)) := by
  unfold staysRecent
  rw [List.drop_append_of_le_length h, List.all_append, List.all_cons, List.all_nil,
    Bool.and_true]

theorem recentRows_append (records : List (TelemetryRecord δ)) (q : TelemetryRecord δ)
    (publicKey : Text) :
    recentRows (records ++ [q]) publicKey =
      if q.publicKey = publicKey then
        (recentRows records publicKey ++ [q.row (records.length + 1)]).filter
          fun r => q.cutoff ≤ r.timestamp
      else recentRows records publicKey := by
  have hold : ((recordedRows records).filter fun r =>
      decide (r.publicKey = publicKey) && staysRecent (records ++ [q]) r) =
      (recentRows records publicKey).filter fun r =>
        decide (q.publicKey ≠ publicKey ∨ q.cutoff ≤ r.timestamp) := by
    rw [recentRows, List.filter_filter]
    refine List.filter_congr fun r hr => ?_
    have hid := (id_of_mem_recordedRows hr).2
    rw [staysRecent_append (by omega)]
    by_cases hkey : r.publicKey = publicKey
    · simp [hkey, Bool.and_comm]
    · simp [hkey]
  have hnew : staysRecent (records ++ [q]) (q.row (records.length + 1)) =
      decide (q.cutoff ≤ q.timestamp) := by
    simp [staysRecent, TelemetryRecord.row]
  rw [recentRows, recordedRows_append, List.filter_append, hold]
  by_cases hkey : q.publicKey = publicKey
  · rw [if_pos hkey, List.filter_append]
    congr 1
    · simp [hkey]
    · rw [List.filter_cons, List.filter_cons, hnew]
      simp [TelemetryRecord.row, hkey]
  · rw [if_neg hkey, List.filter_cons]
    simp [TelemetryRecord.row, hkey]

namespace TelemetryHistory

theorem run_append (records : List (TelemetryRecord δ)) (r : TelemetryRecord δ) :
    run tie (records ++ [r]) = record tie (run tie records) r := by
  simp [run]

theorem nextId_run (records : List (TelemetryRecord δ)) :
    (run tie records).nextId = records.length + 1 := by
  induction records using List.reverseRecOn with
  | nil => rfl
  | append_singleton records r ih =>
      rw [run_append, List.length_append]
      exact congrArg (· + 1) ih

/-- The cut by rowids is a cut of the rows. -/
theorem filter_ids_eq_keepFirst [DecidableEq δ] {rows : List (TelemetryRow δ)} {n : Nat}
    (hids : (rows.map TelemetryRow.id).Nodup) :
    rows.filter (fun r => decide (r.id ∈ ((orderBy (TelemetryRow.recency tie) rows).take n).map
      TelemetryRow.id)) = keepFirst (TelemetryRow.recency tie) n rows := by
  refine List.filter_congr fun r hr => ?_
  rw [decide_eq_decide]
  constructor
  · intro h
    obtain ⟨q, hq, hid⟩ := List.mem_map.mp h
    have hmem := mem_orderBy.mp (List.mem_of_mem_take hq)
    rwa [← List.inj_on_of_nodup_map hids hmem hr hid]
  · exact fun h => List.mem_map_of_mem h

/-- A record leaves the rows of other nodes alone. -/
theorem ofNode_record_of_ne (t : TelemetryHistory δ) {q : TelemetryRecord δ} {publicKey : Text}
    (h : q.publicKey ≠ publicKey) : (t.record tie q).ofNode publicKey = t.ofNode publicKey := by
  have hnew : (q.row t.nextId).publicKey ≠ publicKey := h
  unfold ofNode record
  dsimp only
  rw [List.filter_filter, List.filter_filter, List.filter_append, List.filter_singleton]
  simp only [hnew, decide_false, Bool.false_and, Bool.cond_false, List.append_nil]
  refine List.filter_congr fun r _ => ?_
  by_cases hr : r.publicKey = publicKey
  · simp [hr, Ne.symm h]
  · simp [hr]

/-- A record adds its row and cuts the rows of its node down. -/
theorem ofNode_record_self [DecidableEq δ] (t : TelemetryHistory δ) (q : TelemetryRecord δ)
    (hids : ((t.rows ++ [q.row t.nextId]).map TelemetryRow.id).Nodup) :
    (t.record tie q).ofNode q.publicKey =
      keepFirst (TelemetryRow.recency tie) maxEntriesPerNode
        ((t.ofNode q.publicKey ++ [q.row t.nextId]).filter fun r => q.cutoff ≤ r.timestamp) := by
  have hrecent : (((t.rows ++ [q.row t.nextId]).filter fun r =>
      !(r.publicKey = q.publicKey ∧ r.timestamp < q.cutoff)).filter fun r =>
        r.publicKey = q.publicKey) =
      (t.ofNode q.publicKey ++ [q.row t.nextId]).filter fun r => q.cutoff ≤ r.timestamp := by
    have hnew : (q.row t.nextId).publicKey = q.publicKey := rfl
    rw [ofNode, List.filter_filter, List.filter_append, List.filter_append, List.filter_filter]
    congr 1
    · refine List.filter_congr fun r _ => ?_
      by_cases hr : r.publicKey = q.publicKey
      · have hage : decide (q.cutoff ≤ r.timestamp) = !decide (r.timestamp < q.cutoff) := by
          rw [← decide_not]
          exact decide_eq_decide.mpr not_lt.symm
        simp [hr, hage]
      · simp [hr]
    · simp [List.filter_cons, hnew]
  rw [← hrecent, ← filter_ids_eq_keepFirst]
  · simp only [record, ofNode]
    rw [List.filter_comm]
    refine List.filter_congr fun r hr => ?_
    have hkey : r.publicKey = q.publicKey := by simpa using (List.mem_filter.mp hr).2
    simp [hkey]
  · exact hids.sublist ((List.filter_sublist.trans List.filter_sublist).map _)

/-- The table only has rows that were recorded. -/
theorem rows_run_sublist (records : List (TelemetryRecord δ)) :
    (run tie records).rows.Sublist (recordedRows records) := by
  induction records using List.reverseRecOn with
  | nil => exact List.Sublist.refl _
  | append_singleton records r ih =>
      have hid : (run tie records).nextId = records.length + 1 := nextId_run records
      rw [run_append, recordedRows_append, ← hid]
      exact (List.filter_sublist.trans List.filter_sublist).trans (ih.append_right _)

/-- The rows of a node are the newest of those that were recorded and stayed recent. -/
theorem ofNode_run [DecidableEq δ] (htie : Function.Injective tie)
    (records : List (TelemetryRecord δ)) (publicKey : Text) :
    (run tie records).ofNode publicKey =
      keepFirst (TelemetryRow.recency tie) maxEntriesPerNode (recentRows records publicKey) := by
  induction records using List.reverseRecOn with
  | nil => rfl
  | append_singleton records q ih =>
      rw [run_append, recentRows_append]
      by_cases hkey : q.publicKey = publicKey
      · subst hkey
        have hall := recordedRows_ids (records ++ [q])
        rw [recordedRows_append] at hall
        have hids : (((run tie records).rows ++
            [q.row (run tie records).nextId]).map TelemetryRow.id).Nodup := by
          rw [nextId_run]
          refine (List.pairwise_map.mpr (hall.imp fun hlt => hlt.ne)).sublist ?_
          exact ((rows_run_sublist records).append_right _).map _
        have hkeys : ((recentRows records q.publicKey ++
            [q.row (records.length + 1)]).map (TelemetryRow.recency tie)).Nodup := by
          refine recency_nodup htie (hall.sublist ?_)
          exact List.filter_sublist.append_right _
        -- what is recent comes before what is not
        have hclosed : ∀ a b : TelemetryRow δ, a.recency tie < b.recency tie →
            decide (q.cutoff ≤ b.timestamp) = true → decide (q.cutoff ≤ a.timestamp) = true := by
          intro a b hlt hb
          rw [decide_eq_true_eq] at hb ⊢
          rcases Prod.Lex.lt_iff.mp hlt with hlt | ⟨heq, -⟩
          · exact hb.trans (OrderDual.toDual_lt_toDual.mp hlt).le
          · exact hb.trans (OrderDual.toDual_inj.mp heq).ge
        rw [if_pos rfl, ofNode_record_self _ _ hids, ih, nextId_run,
          keepFirst_filter hkeys fun a _ b _ => hclosed a b,
          keepFirst_filter (nodup_append_keepFirst hkeys) fun a _ b _ => hclosed a b,
          keepFirst_append hkeys]
      · rw [if_neg hkey, ofNode_record_of_ne _ hkey, ih]

theorem recentRows_recency_nodup (htie : Function.Injective tie)
    (records : List (TelemetryRecord δ)) (publicKey : Text) :
    ((recentRows records publicKey).map (TelemetryRow.recency tie)).Nodup :=
  recency_nodup htie ((recordedRows_ids records).sublist List.filter_sublist)

/-- **The history is the newest of all that was recorded.** After any records, what a node's
history shows is cut from everything that was recorded for it and stayed recent, and its latest
snapshot is the newest of that. -/
theorem telemetryHistory_of_records [DecidableEq δ] (htie : Function.Injective tie)
    (records : List (TelemetryRecord δ)) (publicKey : Text) (sinceTimestamp : Int) :
    getHistory tie (run tie records) publicKey sinceTimestamp =
        (((orderBy (TelemetryRow.recency tie) (recentRows records publicKey)).take
          maxEntriesPerNode).filter fun r => sinceTimestamp ≤ r.timestamp).reverse ∧
      getLatest tie (run tie records) publicKey =
        (orderBy (TelemetryRow.recency tie) (recentRows records publicKey)).head? := by
  have hkeys := recentRows_recency_nodup htie records publicKey
  unfold getHistory getLatest
  rw [ofNode_run htie, orderBy_filter (nodup_keepFirst hkeys), orderBy_keepFirst hkeys]
  refine ⟨rfl, ?_⟩
  rw [List.head?_take, if_neg (by decide)]

/-- A node with two snapshots, of which the second finds the first too old. -/
theorem telemetryHistory_of_records_stale :
    getLatest Int.ofNat (run Int.ofNat
      [⟨0, ['a'], 0, 'x'⟩, ⟨3000000, ['a'], 3000000, 'y'⟩]) ['a'] =
        some ⟨2, ['a'], 3000000, 'y'⟩ := by
  rw [(telemetryHistory_of_records (fun _ _ h => Int.ofNat.inj h) _ _ 0).2]
  decide +kernel

end TelemetryHistory

end RemoteTerm
