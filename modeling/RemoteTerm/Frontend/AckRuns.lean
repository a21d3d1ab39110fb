import Mathlib
import RemoteTerm.Frontend.AckBounds
import RemoteTerm.Frontend.ContentDedup

/-!
# The shown acks over whole runs

When no row is applied that is behind what is shown or reported, a shown ack
count never falls, and it is the server's once every report is delivered.

## Implementation notes

The invariant bounds every row, shown or cached, by the reported acks from below
and by the server's count from above.
-/

namespace RemoteTerm

open Library

namespace AckState

variable {table : Nat → Message} {s s' : AckState} {k : Text} {m : Message} {rows : List Message}

/-- A row with the ack that waited for it. -/
def withPending (s : AckState) (m : Message) : Message :=
  (s.active.pendingAcks.applyPendingAck m).1

/-- The rows that the server sends are those of its table at some moment. -/
def Served (table : Nat → Message) (s : AckState) : AckAction → Prop
  | .message m => RowWithin table (fun _ => 0) s.serverAcked m.conversationKey m
  | .latest conversationId rows =>
      RowsWithin table (fun _ => 0) s.serverAcked conversationId rows
  | .reconcile conversationId rows =>
      RowsWithin table (fun _ => 0) s.serverAcked conversationId rows
  | .older conversationId rows =>
      RowsWithin table (fun _ => 0) s.serverAcked conversationId rows
  | .newer conversationId rows =>
      RowsWithin table (fun _ => 0) s.serverAcked conversationId rows
  | .around conversationId rows _ _ =>
      RowsWithin table (fun _ => 0) s.serverAcked conversationId rows
  | _ => True

/-- A row, with the ack that waited for it, is not behind what was reported. -/
def UpToDate (s : AckState) (m : Message) : Prop := s.delivered m.id ≤ (s.withPending m).acked

/-- Nor is it behind the shown row that it replaces. -/
def Replaces (s : AckState) (m : Message) : Prop :=
  s.UpToDate m ∧ ∀ shown ∈ s.messages, shown.id = m.id → shown.acked ≤ (s.withPending m).acked

/-- A live message is added to the list, or to the entry of its conversation. -/
def Takes (s : AckState) (m : Message) : Prop :=
  if s.openId = some m.conversationKey then
    s.hasNewer = false ∧ m.contentKey ∉ s.active.seenMessageContent ∧
      m.id ∉ s.messages.map fun n => n.id
  else
    ∀ e, s.cache.get? m.conversationKey = some e →
      m.contentKey ∉ e.contentKeys ∧ m.id ∉ e.messages.map fun n => n.id

/-- No row is applied that is outdated. -/
def NotOutdated (s : AckState) : AckAction → Prop
  | .message m => s.Takes m → s.UpToDate m
  | .latest conversationId rows => s.openId = some conversationId → ∀ m ∈ rows, s.Replaces m
  | .reconcile conversationId rows => s.openId = some conversationId → ∀ m ∈ rows, s.Replaces m
  | .around conversationId rows _ _ => s.openId = some conversationId → ∀ m ∈ rows, s.Replaces m
  | .older conversationId rows => s.openId = some conversationId → ∀ m ∈ rows,
      m.id ∉ s.messages.map (fun n => n.id) → m.contentKey ∉ s.messages.map Message.contentKey →
        s.UpToDate m
  | .newer conversationId rows => s.openId = some conversationId → ∀ m ∈ rows,
      m.contentKey ∉ s.active.seenMessageContent → s.UpToDate m
  | _ => True

/-- What holds in every state of a run. -/
structure Settled (table : Nat → Message) (s : AckState) : Prop where
  shown : ∀ k, s.openId = some k → RowsWithin table s.delivered s.serverAcked k s.messages
  closed : s.openId = none → s.messages = []
  seen : ∀ m ∈ s.messages, m.contentKey ∈ s.active.seenMessageContent
  cached : CacheWithin table s.delivered s.serverAcked s.cache
  pendingBound : ∀ id p, s.active.pendingAcks.get? id = some p → p.ackCount ≤ s.serverAcked id
  sentBound : ∀ a ∈ s.sent, a.ackCount ≤ s.serverAcked a.messageId
  reported : ∀ id, s.delivered id = s.serverAcked id ∨
    ∃ a ∈ s.sent, a.messageId = id ∧ a.ackCount = s.serverAcked id
  deliveredBound : ∀ id, s.delivered id ≤ s.serverAcked id

/-- What an action leaves: the invariant, and no shown count that fell. -/
structure Rises (table : Nat → Message) (s s' : AckState) : Prop where
  settled : s'.Settled table
  rises : ∀ m ∈ s.messages, ∀ m' ∈ s'.messages, m'.id = m.id → m.acked ≤ m'.acked

namespace Settled

theorem nodup (h : s.Settled table) : (s.messages.map fun m => m.id).Nodup := by
  cases hopen : s.openId with
  | none =>
      rw [h.closed hopen]
      exact List.nodup_nil
  | some k => exact (h.shown k hopen).nodup

theorem acked_le (h : s.Settled table) {m m' : Message} (hm : m ∈ s.messages)
    (hm' : m' ∈ s.messages) (hid : m'.id = m.id) : m.acked ≤ m'.acked :=
  (congrArg (fun n : Message => n.acked) (eq_of_id_eq h.nodup hm hm' hid.symm)).le

theorem unchanged (h : s.Settled table) : Rises table s s :=
  ⟨h, fun _ hm _ hm' hid => h.acked_le hm hm' hid⟩

/-- The list, the cache and the open conversation are exchanged, and pending acks are used up. -/
theorem moved (h : s.Settled table) {active : ActiveMessages} {openId : Option Text}
    {hasOlder hasNewer : Bool} {cache : ConversationMessageCache}
    (hpending : ∀ id p, active.pendingAcks.get? id = some p →
      s.active.pendingAcks.get? id = some p)
    (hshown : ∀ k, openId = some k →
      RowsWithin table s.delivered s.serverAcked k active.messages)
    (hclosed : openId = none → active.messages = [])
    (hseen : ∀ m ∈ active.messages, m.contentKey ∈ active.seenMessageContent)
    (hcached : CacheWithin table s.delivered s.serverAcked cache) :
    ({ s with active, openId, hasOlder, hasNewer, cache } : AckState).Settled table :=
  ⟨hshown, hclosed, hseen, hcached, fun id p hp => h.pendingBound id p (hpending id p hp),
    h.sentBound, h.reported, h.deliveredBound⟩

/-- The list of the open conversation is exchanged, and pending acks are used up. -/
theorem shows (h : s.Settled table) (hopen : s.openId = some k) {active : ActiveMessages}
    (hasOlder hasNewer : Bool)
    (hpending : ∀ id p, active.pendingAcks.get? id = some p →
      s.active.pendingAcks.get? id = some p)
    (hrows : RowsWithin table s.delivered s.serverAcked k active.messages)
    (hseen : ∀ m ∈ active.messages, m.contentKey ∈ active.seenMessageContent)
    (hrises : ∀ m' ∈ active.messages, m' ∈ s.messages ∨
      ∀ m ∈ s.messages, m'.id = m.id → m.acked ≤ m'.acked) :
    Rises table s { s with active, hasOlder, hasNewer } := by
  constructor
  · refine h.moved hpending (fun k' hk' => ?_) (fun hnone => ?_) hseen h.cached
    · rw [hopen] at hk'
      rw [← Option.some.inj hk']
      exact hrows
    · rw [hopen] at hnone
      cases hnone
  · intro m hm m' hm' hid
    rcases hrises m' hm' with hold | hnew
    · exact h.acked_le hm hold hid
    · exact hnew m hm hid

/-- Pending acks are used up, and the list stays. -/
theorem keeps (h : s.Settled table) (hopen : s.openId = some k) {pendingAcks : PendingAcks}
    (hasOlder hasNewer : Bool)
    (hpending : ∀ id p, pendingAcks.get? id = some p → s.active.pendingAcks.get? id = some p) :
    Rises table s { s with active := { s.active with pendingAcks }, hasOlder, hasNewer } :=
  h.shows hopen hasOlder hasNewer hpending (h.shown k hopen) h.seen fun _ hm => Or.inl hm

/-- A served row that is up to date is within the bounds, with its pending ack. -/
theorem row (h : s.Settled table) (hserved : RowWithin table (fun _ => 0) s.serverAcked k m)
    (hup : s.UpToDate m) : RowWithin table s.delivered s.serverAcked k (s.withPending m) := by
  have hid : (s.withPending m).id = m.id := applyPendingAck_id _ m
  have hkey : (s.withPending m).contentKey = m.contentKey := applyPendingAck_contentKey _ m
  refine ⟨?_, ?_, ?_, ?_⟩
  · rw [hid]
    exact hserved.inside
  · rw [hid, hkey]
    exact hserved.keyed
  · rw [hid]
    exact hup
  · rw [hid]
    exact applyPendingAck_acked_bound hserved.upper fun p hp => h.pendingBound m.id p hp

/-- The rows of a page that are taken, with their pending acks. -/
theorem page (h : s.Settled table)
    (hserved : RowsWithin table (fun _ => 0) s.serverAcked k rows) {taken : List Message}
    (hnodup : (taken.map fun m => m.id).Nodup)
    (htaken : ∀ n ∈ taken, ∃ m ∈ rows, n = s.withPending m ∧ s.UpToDate m) :
    RowsWithin table s.delivered s.serverAcked k taken := by
  refine ⟨hnodup, fun n hn => ?_⟩
  obtain ⟨m, hm, rfl, hup⟩ := htaken n hn
  exact h.row (hserved.within m hm) hup

/-- The rows of a page keep their ids. -/
theorem ids_withPending (s : AckState) (rows : List Message) :
    (rows.map s.withPending).map (fun m => m.id) = rows.map fun m => m.id := by
  rw [List.map_map]
  exact List.map_congr_left fun m _ => applyPendingAck_id _ m

/-- **Growth**: the report of a new count is on its way. -/
theorem grow (h : s.Settled table) (a : AckEvent) : Rises table s (s.apply (.grow a)) := by
  rw [AckState.apply]
  split
  next hlt =>
    have hself : Function.update s.serverAcked a.messageId a.ackCount a.messageId = a.ackCount :=
      Function.update_self ..
    have hgrows : ∀ id, s.serverAcked id ≤
        Function.update s.serverAcked a.messageId a.ackCount id := by
      intro id
      by_cases hid : id = a.messageId
      · subst hid
        rw [Function.update_self]
        exact hlt.le
      · rw [Function.update_of_ne hid]
    refine ⟨⟨fun k hk => (h.shown k hk).mono hgrows, h.closed, h.seen,
      fun k e he => (h.cached k e he).mono hgrows,
      fun id p hp => (h.pendingBound id p hp).trans (hgrows id), ?_, ?_,
      fun id => (h.deliveredBound id).trans (hgrows id)⟩,
      fun _ hm _ hm' hid => h.acked_le hm hm' hid⟩
    · intro b hb
      rcases List.mem_append.mp hb with hb | hb
      · exact (h.sentBound b hb).trans (hgrows _)
      · rw [List.mem_singleton.mp hb]
        exact hself.ge
    · intro id
      by_cases hid : id = a.messageId
      · subst hid
        exact Or.inr ⟨a, List.mem_append_right _ List.mem_cons_self, rfl, hself.symm⟩
      · dsimp only
        rw [Function.update_of_ne hid]
        refine (h.reported id).imp_right ?_
        rintro ⟨b, hb, hrest⟩
        exact ⟨b, List.mem_append_left _ hb, hrest⟩
  next => exact h.unchanged

/-- A report that is delivered raises the row of its message, or waits for it. -/
theorem receive (h : s.Settled table) {a : AckEvent}
    (hbound : a.ackCount ≤ s.serverAcked a.messageId) {sent : List AckEvent}
    (hsent : (a :: sent).Perm s.sent) :
    Rises table s { s.receiveMessageAck a with sent } := by
  have hcached := h.cached.updateAck hbound a.paths a.packetId
  have hrest : ∀ b ∈ sent, b ∈ s.sent := fun b hb =>
    hsent.mem_iff.mp (List.mem_cons_of_mem _ hb)
  have hdelivered : ∀ id, Function.update s.delivered a.messageId
      (max (s.delivered a.messageId) a.ackCount) id ≤ s.serverAcked id := by
    intro id
    by_cases hid : id = a.messageId
    · subst hid
      rw [Function.update_self]
      exact max_le (h.deliveredBound _) hbound
    · rw [Function.update_of_ne hid]
      exact h.deliveredBound id
  have hreported : ∀ id, Function.update s.delivered a.messageId
      (max (s.delivered a.messageId) a.ackCount) id = s.serverAcked id ∨
      ∃ b ∈ sent, b.messageId = id ∧ b.ackCount = s.serverAcked id := by
    intro id
    rcases h.reported id with heq | ⟨b, hb, rfl, hcount⟩
    · refine Or.inl (le_antisymm (hdelivered id) (heq.ge.trans ?_))
      by_cases hid : id = a.messageId
      · subst hid
        rw [Function.update_self]
        exact le_max_left _ _
      · rw [Function.update_of_ne hid]
    · rcases List.mem_cons.mp (hsent.mem_iff.mpr hb) with rfl | hb
      · refine Or.inl (le_antisymm (hdelivered _) ?_)
        rw [Function.update_self, ← hcount]
        exact le_max_right _ _
      · exact Or.inr ⟨b, hb, rfl, hcount⟩
  by_cases hin : a.messageId ∈ s.messages.map fun m => m.id
  · have hactive : s.updateMessageAck a =
        { s.active with
          messages := replaceMessage s.messages a.messageId fun m =>
            m.withAck a.ackCount (m.longerPaths a.paths) a.packetId
          pendingAcks := s.active.pendingAcks.pop a.messageId } := if_pos hin
    have hkeys : (replaceMessage s.messages a.messageId fun m =>
        m.withAck a.ackCount (m.longerPaths a.paths) a.packetId).map Message.contentKey =
        s.messages.map Message.contentKey :=
      replaceMessage_map (fun m => m.withAck_contentKey a.ackCount _ a.packetId) _ _
    unfold receiveMessageAck
    rw [hactive]
    refine ⟨⟨fun k hk => (h.shown k hk).ack hbound _ a.packetId, fun hnone => ?_, fun m hm => ?_,
      hcached, fun id p hp => ?_, fun b hb => h.sentBound b (hrest b hb), hreported,
      hdelivered⟩, ?_⟩
    · rw [h.closed hnone] at hin
      cases hin
    · have hkey : m.contentKey ∈ (replaceMessage s.messages a.messageId fun m =>
          m.withAck a.ackCount (m.longerPaths a.paths) a.packetId).map Message.contentKey :=
        List.mem_map_of_mem hm
      rw [hkeys] at hkey
      obtain ⟨old, hold, heq⟩ := List.mem_map.mp hkey
      rw [← heq]
      exact h.seen old hold
    · exact h.pendingBound id p (s.active.pendingAcks.get?_pop_eq_some_iff.mp hp).2
    · intro m hm m' hm' hid
      rcases mem_replaceMessage h.nodup hm' with ⟨hold, -⟩ | ⟨old, hold, -, rfl⟩
      · exact h.acked_le hm hold hid
      · exact (h.acked_le hm hold hid).trans (le_max_left _ _)
  · have hactive : s.updateMessageAck a =
        { s.active with
          pendingAcks :=
            s.active.pendingAcks.setPendingAck a.messageId a.ackCount a.paths a.packetId } :=
      if_neg hin
    unfold receiveMessageAck
    rw [hactive]
    refine ⟨⟨fun k hk => (h.shown k hk).skip hin, h.closed, h.seen, hcached, fun id p hp => ?_,
      fun b hb => h.sentBound b (hrest b hb), hreported, hdelivered⟩,
      fun _ hm _ hm' hid => h.acked_le hm hm' hid⟩
    exact setPendingAck_bound h.pendingBound hbound hp

/-- A live message joins the list or its entry of the cache, when it is up to date. -/
theorem observe (h : s.Settled table)
    (hserved : RowWithin table (fun _ => 0) s.serverAcked m.conversationKey m)
    (hup : s.Takes m → s.UpToDate m) : Rises table s (s.observeMessage m) := by
  have hid : (s.active.pendingAcks.applyPendingAck m).1.id = m.id := applyPendingAck_id _ m
  have hkey : (s.active.pendingAcks.applyPendingAck m).1.contentKey = m.contentKey :=
    applyPendingAck_contentKey _ m
  have hpending : ∀ id p, (s.active.pendingAcks.applyPendingAck m).2.get? id = some p →
      s.active.pendingAcks.get? id = some p := fun _ _ => applyPendingAck_get?
  have hconversation := applyPendingAck_conversationKey s.active.pendingAcks m
  have htwice := applyPendingAck_twice s.active.pendingAcks m
  have hrow : s.Takes m → RowWithin table s.delivered s.serverAcked m.conversationKey
      (s.active.pendingAcks.applyPendingAck m).1 := fun htakes => h.row hserved (hup htakes)
  unfold observeMessage
  generalize s.active.pendingAcks.applyPendingAck m = applied
    at hid hkey hpending htwice hrow hconversation
  obtain ⟨m', pendingAcks⟩ := applied
  dsimp only at hid hkey hpending htwice hrow hconversation ⊢
  unfold Takes at hrow
  rw [hconversation]
  split
  next hopen =>
    rw [if_pos hopen] at hrow
    split
    next => exact h.keeps hopen s.hasOlder s.hasNewer hpending
    next hnewer =>
      unfold ActiveMessages.appendActiveMessageIfNew
      rw [htwice]
      dsimp only
      split
      next => exact h.keeps hopen s.hasOlder s.hasNewer hpending
      next hnew =>
        have hnoted : ∀ n ∈ s.messages,
            n.contentKey ∈ ActiveMessages.noteContent { s.active with pendingAcks }
              m'.contentKey := by
          intro n hn
          unfold ActiveMessages.noteContent
          split
          next => exact List.mem_cons_of_mem _ (List.mem_map_of_mem hn)
          next => exact List.mem_cons_of_mem _ (h.seen n hn)
        split
        next hin =>
          refine h.shows hopen s.hasOlder s.hasNewer hpending (h.shown _ hopen) hnoted
            fun _ hm' => Or.inl hm'
        next hout =>
          rw [hkey] at hnew
          have hwithin := hrow ⟨Bool.eq_false_iff.mpr hnewer, hnew, hid ▸ hout⟩
          refine h.shows hopen s.hasOlder s.hasNewer hpending
            ((h.shown _ hopen).append (RowsWithin.single hwithin)
              (List.forall_mem_singleton.mpr hout)) ?_ ?_
          · intro n hn
            rcases List.mem_append.mp hn with hn | hn
            · exact hnoted n hn
            · rw [List.mem_singleton.mp hn]
              unfold ActiveMessages.noteContent
              split <;> exact List.mem_cons_self
          · intro n hn
            refine (List.mem_append.mp hn).imp_right fun hn m hm heq => ?_
            rw [List.mem_singleton.mp hn] at heq
            exact absurd (heq ▸ List.mem_map_of_mem hm) hout
  next hopen =>
    rw [if_neg hopen] at hrow
    refine ⟨h.moved hpending h.shown h.closed h.seen (h.cached.addMessage fun hnew => hrow ?_),
      fun _ hm _ hm' hid => h.acked_le hm hm' hid⟩
    rw [← hid, ← hkey]
    exact hnew

/-- A page takes the acks that waited for its rows. -/
theorem applied_page (s : AckState) (hnodup : (rows.map fun m => m.id).Nodup) :
    ∃ pendingAcks : PendingAcks,
      s.active.pendingAcks.applyPendingAcks rows = (rows.map s.withPending, pendingAcks) ∧
        ∀ id p, pendingAcks.get? id = some p → s.active.pendingAcks.get? id = some p := by
  obtain ⟨hfetched, hpending⟩ := applyPendingAcks_spec s.active.pendingAcks hnodup
  exact ⟨_, Prod.ext hfetched rfl, hpending⟩

/-- What a merged page shows. -/
theorem reconcile_spec {current fetched merged : List Message}
    (h : reconcileConversationMessages current fetched = some merged) :
    merged = fetched ++ current.filter fun m => decide (m.id ∉ fetched.map fun f => f.id) := by
  unfold reconcileConversationMessages at h
  dsimp only at h
  split at h
  next => cases h
  next => exact (Option.some.inj h).symm

/-- The keys of a list that is shown anew are seen. -/
theorem seen_map (l : List Message) : ∀ m ∈ l, m.contentKey ∈ l.map Message.contentKey :=
  fun _ hm => List.mem_map_of_mem hm

/-- The rows of a page that replaces rows. -/
theorem replacing (h : s.Settled table)
    (hserved : RowsWithin table (fun _ => 0) s.serverAcked k rows)
    (hreplaces : ∀ m ∈ rows, s.Replaces m) :
    RowsWithin table s.delivered s.serverAcked k (rows.map s.withPending) ∧
      ∀ m' ∈ rows.map s.withPending, ∀ m ∈ s.messages, m'.id = m.id → m.acked ≤ m'.acked := by
  constructor
  · refine h.page hserved ?_ fun n hn => ?_
    · rw [ids_withPending]
      exact hserved.nodup
    · obtain ⟨m, hm, rfl⟩ := List.mem_map.mp hn
      exact ⟨m, hm, rfl, (hreplaces m hm).1⟩
  · intro n hn shown hshown hid
    obtain ⟨m, hm, rfl⟩ := List.mem_map.mp hn
    rw [withPending, applyPendingAck_id] at hid
    exact (hreplaces m hm).2 shown hshown hid.symm

/-- A page that is merged. -/
theorem takePage (h : s.Settled table) (hopen : s.openId = some k)
    (hserved : RowsWithin table (fun _ => 0) s.serverAcked k rows)
    (hreplaces : ∀ m ∈ rows, s.Replaces m) (always : Bool) :
    Rises table s (s.takePage rows always) := by
  obtain ⟨pendingAcks, hpage, hpending⟩ := applied_page s hserved.nodup
  obtain ⟨hrows, hrises⟩ := h.replacing hserved hreplaces
  unfold AckState.takePage
  rw [hpage]
  dsimp only
  cases hmerge : reconcileConversationMessages s.messages (rows.map s.withPending) with
  | none =>
      cases always with
      | true =>
          exact h.shows hopen _ s.hasNewer hpending (h.shown k hopen) (seen_map s.messages)
            fun _ hm => Or.inl hm
      | false => exact h.keeps hopen _ s.hasNewer hpending
  | some merged =>
      obtain rfl := reconcile_spec hmerge
      refine h.shows hopen _ s.hasNewer hpending ?_ (seen_map _) fun m' hm' => ?_
      · refine hrows.append ((h.shown k hopen).subperm List.filter_sublist.subperm) fun m hm => ?_
        exact of_decide_eq_true (List.mem_filter.mp hm).2
      · rcases List.mem_append.mp hm' with hm' | hm'
        · exact Or.inr (hrises m' hm')
        · exact Or.inl (List.mem_of_mem_filter hm')

/-- The messages around a target take the place of the list. -/
theorem takeAround (h : s.Settled table) (hopen : s.openId = some k)
    (hserved : RowsWithin table (fun _ => 0) s.serverAcked k rows)
    (hreplaces : ∀ m ∈ rows, s.Replaces m) (hasOlder hasNewer : Bool) :
    Rises table s (s.takeAround rows hasOlder hasNewer) := by
  obtain ⟨pendingAcks, hpage, hpending⟩ := applied_page s hserved.nodup
  obtain ⟨hrows, hrises⟩ := h.replacing hserved hreplaces
  unfold AckState.takeAround
  rw [hpage]
  exact h.shows hopen hasOlder hasNewer hpending hrows (seen_map _) fun m' hm' =>
    Or.inr (hrises m' hm')

/-- A page of older messages. -/
theorem takeOlder (h : s.Settled table) (hopen : s.openId = some k)
    (hserved : RowsWithin table (fun _ => 0) s.serverAcked k rows)
    (hup : ∀ m ∈ rows, m.id ∉ s.messages.map (fun n => n.id) →
      m.contentKey ∉ s.messages.map Message.contentKey → s.UpToDate m) :
    Rises table s (s.takeOlder rows) := by
  obtain ⟨pendingAcks, hpage, hpending⟩ := applied_page s hserved.nodup
  unfold AckState.takeOlder
  rw [hpage]
  dsimp only
  split
  next => exact h.keeps hopen _ s.hasNewer hpending
  next =>
    obtain ⟨hmem, hnodup⟩ := uniqueAdditions_spec (s.messages.map fun m => m.id)
      (s.messages.map Message.contentKey) (rows.map s.withPending)
    have hadditions := h.page hserved hnodup fun n hn => by
      obtain ⟨hin, hid, hkey⟩ := hmem n hn
      obtain ⟨m, hm, rfl⟩ := List.mem_map.mp hin
      rw [withPending, applyPendingAck_id] at hid
      rw [withPending, applyPendingAck_contentKey] at hkey
      exact ⟨m, hm, rfl, hup m hm hid hkey⟩
    refine h.shows hopen _ s.hasNewer hpending ?_ (seen_map _) fun m' hm' => ?_
    · exact (h.shown k hopen).append hadditions fun m hm => (hmem m hm).2.1
    · refine (List.mem_append.mp hm').imp_right fun hm' m hm hid => ?_
      exact absurd (hid ▸ List.mem_map_of_mem hm) (hmem m' hm').2.1

/-- A page of newer messages. -/
theorem takeNewer (h : s.Settled table) (hopen : s.openId = some k)
    (hserved : RowsWithin table (fun _ => 0) s.serverAcked k rows)
    (hup : ∀ m ∈ rows, m.contentKey ∉ s.active.seenMessageContent → s.UpToDate m) :
    Rises table s (s.takeNewer rows) := by
  obtain ⟨pendingAcks, hpage, hpending⟩ := applied_page s hserved.nodup
  unfold AckState.takeNewer
  rw [hpage]
  dsimp only
  have hnew : ∀ n ∈ (rows.map s.withPending).filter
      (fun m => decide (m.contentKey ∉ s.active.seenMessageContent)),
      n.contentKey ∉ s.active.seenMessageContent ∧ ∃ m ∈ rows, n = s.withPending m := by
    intro n hn
    obtain ⟨hin, hkey⟩ := List.mem_filter.mp hn
    obtain ⟨m, hm, rfl⟩ := List.mem_map.mp hin
    exact ⟨of_decide_eq_true hkey, m, hm, rfl⟩
  have hadditions : RowsWithin table s.delivered s.serverAcked k
      ((rows.map s.withPending).filter
        fun m => decide (m.contentKey ∉ s.active.seenMessageContent)) := by
    refine h.page hserved ?_ fun n hn => ?_
    · refine List.Nodup.sublist (List.filter_sublist.map _) ?_
      rw [ids_withPending]
      exact hserved.nodup
    · obtain ⟨hkey, m, hm, rfl⟩ := hnew n hn
      rw [withPending, applyPendingAck_contentKey] at hkey
      exact ⟨m, hm, rfl, hup m hm hkey⟩
  -- a shown row has the key of its id, and its key is seen
  have hout : ∀ n ∈ (rows.map s.withPending).filter
      (fun m => decide (m.contentKey ∉ s.active.seenMessageContent)),
      n.id ∉ s.messages.map fun m => m.id := by
    intro n hn hid
    obtain ⟨m, hm, heq⟩ := List.mem_map.mp hid
    apply (hnew n hn).1
    rw [(hadditions.within n hn).keyed, ← heq, ← ((h.shown k hopen).within m hm).keyed]
    exact h.seen m hm
  refine h.shows hopen s.hasOlder _ hpending ((h.shown k hopen).append hadditions hout) ?_
    fun m' hm' => ?_
  · intro n hn
    rcases List.mem_append.mp hn with hn | hn
    · exact List.mem_append_right _ (h.seen n hn)
    · exact List.mem_append_left _ (List.mem_map_of_mem hn)
  · refine (List.mem_append.mp hm').imp_right fun hm' m hm hid => ?_
    exact absurd (hid ▸ List.mem_map_of_mem hm) (hout m' hm')

/-- The list that is left goes to the cache. -/
theorem cacheOpen (h : s.Settled table) :
    CacheWithin table s.delivered s.serverAcked s.cacheOpen := by
  unfold AckState.cacheOpen
  split
  next => exact h.cached
  next prevId hopen =>
    split
    next => exact h.cached.store (h.shown prevId hopen)
    next => exact h.cached

/-- Nothing is shown. -/
theorem cleared (h : s.Settled table) {openId : Option Text} {hasOlder hasNewer : Bool}
    {cache : ConversationMessageCache}
    (hcached : CacheWithin table s.delivered s.serverAcked cache) :
    Rises table s { s.clear with openId, hasOlder, hasNewer, cache } :=
  ⟨h.moved (fun _ _ hp => hp) (fun _ _ => ⟨List.nodup_nil, List.forall_mem_nil _⟩) (fun _ => rfl)
    (List.forall_mem_nil _) hcached, fun _ _ _ hm' => absurd hm' List.not_mem_nil⟩

/-- A message that is a target: nothing is shown until the messages around it arrive. -/
theorem target (h : s.Settled table) (conversationId : Text) :
    Rises table s (s.leave (some conversationId)).clear := by
  unfold AckState.leave
  split
  next => exact h.cleared h.cached
  next => exact h.cleared h.cacheOpen

/-- Another conversation is shown from the cache, or nothing. -/
theorem switchTo (h : s.Settled table) (conversationId : Option Text) :
    Rises table s (s.switchTo conversationId) := by
  unfold AckState.switchTo
  split
  next => exact h.unchanged
  next hchanged =>
    have hleave : s.leave conversationId =
        { s with cache := s.cacheOpen, openId := conversationId, hasNewer := false } :=
      if_neg hchanged
    have hcacheOpen := h.cacheOpen
    cases conversationId with
    | none =>
        dsimp only
        rw [hleave]
        exact h.cleared hcacheOpen
    | some newId =>
        dsimp only
        rw [hleave]
        dsimp only
        unfold ConversationMessageCache.get
        cases hget : s.cacheOpen.get? newId with
        | none => exact h.cleared hcacheOpen
        | some entry =>
            have hentry := hcacheOpen newId entry hget
            refine ⟨h.moved (fun _ _ hp => hp) (fun k hk => ?_) (fun hnone => (by cases hnone))
              (seen_map _) ((hcacheOpen.pop newId).set hentry), fun m hm m' hm' hid => ?_⟩
            · rw [← Option.some.inj hk]
              exact hentry
            -- the lists of two conversations have no message in common
            exfalso
            apply hchanged
            cases hopen : s.openId with
            | none =>
                rw [h.closed hopen] at hm
                cases hm
            | some k =>
                have hold := ((h.shown k hopen).within m hm).inside
                rw [← hid, (hentry.within m' hm').inside] at hold
                rw [hold]

/-- **Every action keeps the invariant**, and lowers no shown count, when it applies no outdated
row. -/
theorem step (h : s.Settled table) (e : AckAction) (hserved : s.Served table e)
    (hcurrent : s.NotOutdated e) : Rises table s (s.apply e) := by
  cases e with
  | grow a => exact h.grow a
  | deliver i =>
      rw [AckState.apply]
      cases hsent : s.sent[i]? with
      | none => exact h.unchanged
      | some a =>
          obtain ⟨hi, rfl⟩ := List.getElem?_eq_some_iff.mp hsent
          exact h.receive (h.sentBound _ (List.getElem_mem hi)) (List.getElem_cons_eraseIdx_perm hi)
  | message m => exact h.observe hserved hcurrent
  | latest conversationId rows =>
      rw [AckState.apply, whenOpen]
      split
      next hopen => exact h.takePage hopen hserved (hcurrent hopen) true
      next => exact h.unchanged
  | reconcile conversationId rows =>
      rw [AckState.apply, whenOpen]
      split
      next hopen => exact h.takePage hopen hserved (hcurrent hopen) false
      next => exact h.unchanged
  | older conversationId rows =>
      rw [AckState.apply, whenOpen]
      split
      next hopen => exact h.takeOlder hopen hserved (hcurrent hopen)
      next => exact h.unchanged
  | newer conversationId rows =>
      rw [AckState.apply, whenOpen]
      split
      next hopen => exact h.takeNewer hopen hserved (hcurrent hopen)
      next => exact h.unchanged
  | around conversationId rows hasOlder hasNewer =>
      rw [AckState.apply, whenOpen]
      split
      next hopen => exact h.takeAround hopen hserved (hcurrent hopen) hasOlder hasNewer
      next => exact h.unchanged
  | jumpToBottom =>
      rw [AckState.apply, AckState.jumpToBottom]
      split
      next => exact h.unchanged
      next id _ => exact h.cleared (h.cached.pop id)
  | switch conversationId => exact h.switchTo conversationId
  | target conversationId => exact h.target conversationId

end Settled

/-- The browser starts with nothing to show. -/
def start (acked : Nat → Nat) : AckState := { serverAcked := acked, delivered := acked }

theorem start_settled (table : Nat → Message) (acked : Nat → Nat) :
    (start acked).Settled table :=
  ⟨fun _ hk => (by cases hk), fun _ => rfl, List.forall_mem_nil _, fun _ _ he => (by cases he),
    fun _ _ hp => (by cases hp), List.forall_mem_nil _, fun _ => Or.inl rfl, fun _ => le_rfl⟩

/-- A run under a condition on its actions. -/
abbrev Run (ok : AckState → AckAction → Prop) : AckState → AckState → Prop :=
  Machine AckState.apply ok

/-- The actions of the server and of the browser that apply no outdated row. -/
def Sound (table : Nat → Message) (s : AckState) (e : AckAction) : Prop :=
  s.Served table e ∧ s.NotOutdated e

theorem Run.settled {acked : Nat → Nat} (run : Run (Sound table) (start acked) s) :
    s.Settled table :=
  run.invariant (fun _ e hok h => (h.step e hok.1 hok.2).settled) (start_settled table acked)

theorem shownAck_eq_some_iff (h : s.Settled table) {id n : Nat} :
    s.shownAck id = some n ↔ ∃ m ∈ s.messages, m.id = id ∧ m.acked = n := by
  unfold shownAck
  rw [Option.map_eq_some_iff]
  constructor
  · rintro ⟨m, hm, rfl⟩
    exact ⟨m, List.mem_of_find?_eq_some hm, by simpa using List.find?_some hm, rfl⟩
  · rintro ⟨m, hm, rfl, rfl⟩
    cases hfind : s.messages.find? fun n => decide (n.id = m.id) with
    | none => exact absurd (decide_eq_true rfl) (List.find?_eq_none.mp hfind m hm)
    | some found =>
        have hid : found.id = m.id := by simpa using List.find?_some hfind
        exact ⟨found, rfl, congrArg (fun n : Message => n.acked)
          (eq_of_id_eq h.nodup (List.mem_of_find?_eq_some hfind) hm hid)⟩

/-- A message that stays in the list does not lose acks. -/
theorem Run.shownAck_le (h : s.Settled table) {t : AckState} {id n : Nat}
    (run : Run (fun s e => s.Sound table e ∧ ((s.apply e).shownAck id).isSome) s t)
    (hshown : s.shownAck id = some n) : ∃ n', t.shownAck id = some n' ∧ n ≤ n' := by
  have hboth : t.Settled table ∧ ∃ n', t.shownAck id = some n' ∧ n ≤ n' := by
    refine run.invariant (P := fun t => t.Settled table ∧
      ∃ n', t.shownAck id = some n' ∧ n ≤ n') ?_ ⟨h, n, hshown, le_rfl⟩
    rintro t e ⟨hok, hstays⟩ ⟨ht, n', hn', hle⟩
    have hstep := ht.step e hok.1 hok.2
    refine ⟨hstep.settled, ?_⟩
    obtain ⟨n'', hn''⟩ := Option.isSome_iff_exists.mp hstays
    obtain ⟨m, hm, hid, rfl⟩ := (shownAck_eq_some_iff ht).mp hn'
    obtain ⟨m', hm', hid', rfl⟩ := (shownAck_eq_some_iff hstep.settled).mp hn''
    exact ⟨m'.acked, hn'', hle.trans (hstep.rises m hm m' hm' (hid'.trans hid.symm))⟩
  exact hboth.2

end AckState

/-- **A shown ack count never falls**, and it is the server's once every report is delivered, in
every run that applies no outdated row. -/
theorem shown_acks_rise {table : Nat → Message} {acked : Nat → Nat} {s : AckState}
    (run : AckState.Run (AckState.Sound table) (AckState.start acked) s) :
    (∀ t id n, AckState.Run (fun s e => s.Sound table e ∧ ((s.apply e).shownAck id).isSome) s t →
      s.shownAck id = some n → ∃ n', t.shownAck id = some n' ∧ n ≤ n') ∧
    (s.sent = [] → ∀ id n, s.shownAck id = some n → n = s.serverAcked id) := by
  have hsettled := run.settled
  refine ⟨fun t id n hrun hshown => AckState.Run.shownAck_le hsettled hrun hshown, ?_⟩
  intro hsent id n hshown
  obtain ⟨m, hm, rfl, rfl⟩ := (AckState.shownAck_eq_some_iff hsettled).mp hshown
  cases hopen : s.openId with
  | none =>
      rw [hsettled.closed hopen] at hm
      cases hm
  | some k =>
      have hwithin := (hsettled.shown k hopen).within m hm
      refine le_antisymm hwithin.upper (le_trans (le_of_eq ?_) hwithin.lower)
      refine ((hsettled.reported m.id).resolve_right ?_).symm
      rintro ⟨a, ha, -⟩
      rw [hsent] at ha
      cases ha

section Runs

/-- A message that was sent to a channel. -/
def greeting : Message where
  id := 1
  type := .chan
  conversationKey := ['C']
  text := ['h', 'i']
  senderTimestamp := some 10
  receivedAt := 10
  paths := none
  txtType := 0
  signature := none
  outgoing := true
  acked := 0
  senderName := none
  senderKey := none
  transportCode := none
  region := none
  packetId := none

/-- The first ack of the message. -/
def firstAck : AckEvent where
  messageId := 1
  ackCount := 1

/-- The channel is opened, and its page arrives. -/
def greeted : AckState :=
  ((AckState.start fun _ => 0).apply (.switch (some ['C']))).apply (.latest ['C'] [greeting])

/-- Its ack is counted and reported. -/
def greetingAcked : AckState := (greeted.apply (.grow firstAck)).apply (.deliver 0)

theorem greeting_served {s : AckState} :
    RowsWithin (fun _ => greeting) (fun _ => 0) s.serverAcked ['C'] [greeting] :=
  RowsWithin.single ⟨rfl, rfl, le_rfl, Nat.zero_le _⟩

/-- The shown count goes from nothing to the server's one and does not fall on the way. -/
theorem shown_acks_rise_greeting :
    greeted.shownAck 1 = some 0 ∧ (∃ n, greetingAcked.shownAck 1 = some n ∧ 0 ≤ n) ∧
      1 = greetingAcked.serverAcked 1 := by
  have hopened : AckState.Run (AckState.Sound fun _ => greeting) (AckState.start fun _ => 0) _ :=
    Machine.tail (Machine.refl _) (AckAction.switch (some ['C'])) ⟨trivial, trivial⟩
  have hgreeted := hopened.tail (AckAction.latest ['C'] [greeting])
    ⟨greeting_served, fun _ => List.forall_mem_singleton.mpr
      ⟨Nat.zero_le _, fun _ hm => absurd hm List.not_mem_nil⟩⟩
  have hgrown := hgreeted.tail (AckAction.grow firstAck) ⟨trivial, trivial⟩
  have hreported := hgrown.tail (AckAction.deliver 0) ⟨trivial, trivial⟩
  have hstays : AckState.Run (fun s e => s.Sound (fun _ => greeting) e ∧
      ((s.apply e).shownAck 1).isSome) greeted greetingAcked :=
    ((Machine.refl greeted).tail (AckAction.grow firstAck) ⟨⟨trivial, trivial⟩, by decide⟩).tail
      (AckAction.deliver 0) ⟨⟨trivial, trivial⟩, by decide⟩
  exact ⟨by decide, (shown_acks_rise hgreeted).1 greetingAcked 1 0 hstays (by decide),
    (shown_acks_rise hreported).2 rfl 1 1 (by decide)⟩

/-- A page that was read before the ack and arrives behind its report takes the ack back. -/
theorem shown_ack_falls :
    ∃ s, AckState.Run (AckState.Served fun _ => greeting) (AckState.start fun _ => 0) s ∧
      s.Served (fun _ => greeting) (.reconcile ['C'] [greeting]) ∧ s.shownAck 1 = some 1 ∧
      (s.apply (.reconcile ['C'] [greeting])).shownAck 1 = some 0 ∧
      (s.apply (.reconcile ['C'] [greeting])).sent = [] ∧
      (s.apply (.reconcile ['C'] [greeting])).serverAcked 1 = 1 := by
  have hopened : AckState.Run (AckState.Served fun _ => greeting) (AckState.start fun _ => 0) _ :=
    Machine.tail (Machine.refl _) (AckAction.switch (some ['C'])) trivial
  have hgreeted := hopened.tail (AckAction.latest ['C'] [greeting]) greeting_served
  have hgrown := hgreeted.tail (AckAction.grow firstAck) trivial
  have hreported := hgrown.tail (AckAction.deliver 0) trivial
  exact ⟨greetingAcked, hreported, greeting_served, by decide, by decide, by decide, by decide⟩

end Runs

end RemoteTerm
