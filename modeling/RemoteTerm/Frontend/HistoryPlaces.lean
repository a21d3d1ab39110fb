import RemoteTerm.Frontend.HistoryPages

/-!
# The place of a message

Every message of the open conversation has a place: it is loaded or on a page that is to
be merged, it is before all of them, or it is behind them and still to come. The steps of
the server and of the connection keep the places.

## Implementation notes

A page that is to be merged counts as loaded from its answer on, and until its answer it
is a reason for which a message may still come.
-/

namespace RemoteTerm

open Library

namespace HistoryState

variable {s : HistoryState} {id : Text} {m : Message} {r : HistoryRequest}

/-! ### Places -/

/-- A message before all that is loaded, when the flags will say that there are older ones. -/
structure Before (s : HistoryState) (m : Message) : Prop where
  cursor : ∀ x, s.Loaded x → m.cursor < x.cursor
  flag : (∀ p, ¬ s.Page p) → s.hasOlderMessages = true
  pages : ∀ p, s.Page p → messagePageSize ≤ p.length

/-- A message behind all that is loaded that load-newer will reach, or one that is to come. -/
def Ahead (s : HistoryState) (m : Message) : Prop :=
  (s.hasNewerMessages = true ∧ ∀ x, s.Loaded x → x.cursor < m.cursor) ∨
    (s.hasNewerMessages = false ∧ (s.connected = false ∨ m ∈ s.events ∨ s.Unanswered))

/-- Every message of the open conversation has a place. -/
def Placed (s : HistoryState) : Prop :=
  ∀ id, s.activeConversation = some id → ∀ m ∈ conversationRows s.rows id,
    s.Loaded m ∨ s.Before m ∨ s.Ahead m

/-- What is known of the answer to a request, in every later table. -/
def AnswerOk (rows : List Message) (r : HistoryRequest) (a : HistoryAnswer) : Prop :=
  (∀ x ∈ a.messages, x ∈ conversationRows rows r.conversation) ∧
    match r.kind with
    | .older before _ => (∀ x ∈ a.messages, x.cursor < before) ∧
        ∀ m ∈ conversationRows rows r.conversation, m.cursor < before → m ∉ a.messages →
          a.messages.length = messagePageSize ∧ ∀ x ∈ a.messages, m.cursor < x.cursor
    | .newer after => (∀ x ∈ a.messages, after < x.cursor) ∧
        ∀ m ∈ conversationRows rows r.conversation, after < m.cursor → m ∉ a.messages →
          ∀ x ∈ a.messages, x.cursor < m.cursor
    | .around _ => ∀ m ∈ conversationRows rows r.conversation, m ∉ a.messages →
        (a.hasOlder = true ∧ ∀ x ∈ a.messages, m.cursor < x.cursor) ∨
          ∀ x ∈ a.messages, x.cursor < m.cursor
    | _ => True

/-- What a request stands on: the end of the window that it was asked for, or its target. -/
def Grounded (s : HistoryState) (r : HistoryRequest) : Prop :=
  match r.kind with
  | .older before _ => ∃ w ∈ s.messages, w.cursor = before
  | .newer after => s.hasNewerMessages = true ∧ (∃ w ∈ s.messages, w.cursor = after) ∧
      ∀ w ∈ s.messages, w.cursor ≤ after
  | .around messageId => ∃ t ∈ conversationRows s.rows r.conversation, t.id = messageId
  | .reconcile requestId => 0 < requestId
  | .latest => True

/-- A request that is pending. -/
structure RequestOk (s : HistoryState) (r : HistoryRequest) : Prop where
  owner : r.abortable = true → s.activeConversation = some r.conversation
  outlives : r.abortable = false → ∃ n, r.kind = .reconcile n
  grounded : s.Grounded r
  answered : ∀ a, r.answer = some a → AnswerOk s.rows r a

/-- Two requests that are not both for newer pages, and not both for windows. -/
def Apart (a b : HistoryRequest) : Prop :=
  ¬ (a.kind.isNewer = true ∧ b.kind.isNewer = true) ∧
    ¬ (a.kind.isAround = true ∧ b.kind.isAround = true)

/-- What holds of the table, the events and the cache. -/
structure Stored (s : HistoryState) : Prop where
  ids : (s.rows.map fun m => m.id).Nodup
  order : ∀ id, InOrder (conversationRows s.rows id)
  contents : ∀ id, (conversationRows s.rows id).Pairwise fun a b => a.contentKey ≠ b.contentKey
  events : s.events <:+ s.rows
  offline : s.connected = false → s.events = []
  cache : ∀ id entry, s.cache.get? id = some entry →
    ∀ m ∈ entry.messages, m ∈ conversationRows s.rows id
  messages : ∀ m ∈ s.messages, m ∈ s.rows ∧ s.activeConversation = some m.conversationKey

/-- What holds in every state of a run in step. -/
structure Tracked (s : HistoryState) : Prop where
  stored : s.Stored
  requests : ∀ r ∈ s.requests, s.RequestOk r
  apart : s.requests.Pairwise Apart
  jumping : s.Jumping → (∀ r ∈ s.requests, s.accepts r = false ∧ r.kind.isOlder = false ∧
    r.kind.isNewer = false) ∧ (s.hasNewerMessages = true → s.messages = [])
  browsing : ∀ id, s.activeConversation = some id → s.hasNewerMessages = true → ¬ s.Jumping →
    (∀ r ∈ s.requests, s.accepts r = false) ∧
      ∀ key ∈ s.seenMessageContent, ∃ w ∈ s.messages, w.contentKey = key
  placed : ¬ s.Jumping → s.Placed

theorem Stored.identified (h : s.Stored) (id : Text) :
    Identified (conversationRows s.rows id) where
  id _ ha _ hb heq :=
    List.inj_on_of_nodup_map h.ids (List.mem_of_mem_filter ha) (List.mem_of_mem_filter hb) heq
  content _ ha _ hb heq :=
    List.inj_on_of_nodup_map (List.pairwise_map.mpr (h.contents id)) ha hb heq

theorem Stored.mem_rows (h : s.Stored) (hid : s.activeConversation = some id)
    (hm : m ∈ s.messages) : m ∈ conversationRows s.rows id := by
  obtain ⟨hrows, hactive⟩ := h.messages m hm
  exact mem_conversationRows.mpr ⟨hrows, Option.some.inj (hactive.symm.trans hid)⟩

theorem accepts_conversation (h : s.accepts r = true) :
    s.activeConversation = some r.conversation := by
  simp only [accepts, Bool.and_eq_true, decide_eq_true_eq] at h
  exact h.1

theorem Tracked.mem_of_page (h : s.Tracked) (hid : s.activeConversation = some id)
    {p : List Message} (hp : s.Page p) (hm : m ∈ p) : m ∈ conversationRows s.rows id := by
  obtain ⟨r, hr, haccepts, a, ha, rfl⟩ := hp
  have hconv := Option.some.inj ((accepts_conversation haccepts).symm.trans hid)
  rw [← hconv]
  exact ((h.requests r hr).answered a ha).1 m hm

theorem Tracked.mem_of_loaded (h : s.Tracked) (hid : s.activeConversation = some id)
    (hm : s.Loaded m) : m ∈ conversationRows s.rows id := by
  rcases hm with hm | ⟨p, hp, hm⟩
  · exact h.stored.mem_rows hid hm
  · exact h.mem_of_page hid hp hm

/-- While a page waits to be merged, the window is at the end of its conversation. -/
theorem Tracked.at_end (h : s.Tracked) (hr : r ∈ s.requests) (haccepts : s.accepts r = true) :
    ¬ s.Jumping ∧ s.hasNewerMessages = false := by
  have hjump : ¬ s.Jumping := fun hj =>
    absurd (((h.jumping hj).1 r hr).1.symm.trans haccepts) (by simp)
  refine ⟨hjump, Bool.eq_false_iff.mpr fun hnewer => ?_⟩
  have hnone := (h.browsing _ (accepts_conversation haccepts) hnewer hjump).1 r hr
  exact absurd (hnone.symm.trans haccepts) (by simp)

/-- No page around the window is asked for during a jump. -/
theorem Tracked.not_jumping (h : s.Tracked) (hr : r ∈ s.requests)
    (hkind : r.kind.isOlder = true ∨ r.kind.isNewer = true) : ¬ s.Jumping := by
  intro hj
  obtain ⟨-, holder, hnewer⟩ := (h.jumping hj).1 r hr
  rcases hkind with hkind | hkind
  · exact absurd (holder.symm.trans hkind) (by simp)
  · exact absurd (hnewer.symm.trans hkind) (by simp)

/-- A list that only a page of the conversation is added to. -/
theorem Stored.messages_added (h : s.Stored) (hid : s.activeConversation = some id)
    {messages added : List Message} (hadded : ∀ x ∈ added, x ∈ conversationRows s.rows id)
    (hmessages : ∀ x, x ∈ messages ↔ x ∈ s.messages ∨ x ∈ added) :
    ∀ x ∈ messages, x ∈ s.rows ∧ s.activeConversation = some x.conversationKey := by
  intro x hx
  rcases (hmessages x).mp hx with hx | hx
  · exact h.messages x hx
  · obtain ⟨hrows, hkey⟩ := mem_conversationRows.mp (hadded x hx)
    exact ⟨hrows, hkey ▸ hid⟩

/-- Without a page to be merged, what is loaded is in the list. -/
theorem loaded_iff_of_none (hnone : ∀ r ∈ s.requests, s.accepts r = false) :
    s.Loaded m ↔ m ∈ s.messages := by
  refine ⟨fun h => h.elim (fun hm => hm) ?_, .inl⟩
  rintro ⟨p, ⟨r, hr, haccepts, -⟩, -⟩
  rw [hnone r hr] at haccepts
  cases haccepts

theorem no_page_of_none (hnone : ∀ r ∈ s.requests, s.accepts r = false) (p : List Message) :
    ¬ s.Page p := by
  rintro ⟨r, hr, haccepts, -⟩
  rw [hnone r hr] at haccepts
  cases haccepts

/-- The places of the messages when only those to come move. -/
theorem Placed.congr {t : HistoryState} (h : s.Placed) (hrows : t.rows = s.rows)
    (hactive : t.activeConversation = s.activeConversation) (hmessages : t.messages = s.messages)
    (hpages : ∀ p, t.Page p ↔ s.Page p) (holder : t.hasOlderMessages = s.hasOlderMessages)
    (hnewer : t.hasNewerMessages = s.hasNewerMessages)
    (hcome : ∀ id, s.activeConversation = some id → ∀ m ∈ conversationRows s.rows id,
      s.hasNewerMessages = false → s.connected = false ∨ m ∈ s.events ∨ s.Unanswered →
        t.Loaded m ∨ t.connected = false ∨ m ∈ t.events ∨ t.Unanswered) : t.Placed := by
  have hloaded (y : Message) : t.Loaded y ↔ s.Loaded y := by
    unfold Loaded
    rw [hmessages]
    exact or_congr Iff.rfl (exists_congr fun p => and_congr (hpages p) Iff.rfl)
  intro k hk x hx
  rw [hactive] at hk
  rw [hrows] at hx
  rcases h k hk x hx with hx' | hbefore | ⟨hmore, hall⟩ | ⟨hlast, hx'⟩
  · exact .inl ((hloaded x).mpr hx')
  · exact .inr (.inl ⟨fun y hy => hbefore.cursor y ((hloaded y).mp hy),
      fun hnone => holder.trans (hbefore.flag fun p hp => hnone p ((hpages p).mpr hp)),
      fun p hp => hbefore.pages p ((hpages p).mp hp)⟩)
  · exact .inr (.inr (.inl ⟨hnewer.trans hmore, fun y hy => hall y ((hloaded y).mp hy)⟩))
  · exact (hcome k hk x hx hlast hx').imp_right fun hx' => .inr (.inr ⟨hnewer.trans hlast, hx'⟩)

/-- When nothing is under way, a message without a gap around it is all that is left. -/
theorem Tracked.gapless (h : s.Tracked) (hid : s.activeConversation = some id)
    (hquiet : s.Quiet) : s.Gapless id := by
  obtain ⟨hrequests, hconnected, hevents⟩ := hquiet
  have hempty : ∀ r ∈ s.requests, s.accepts r = false := by simp [hrequests]
  have hjump : ¬ s.Jumping := by
    rintro ⟨r, hr, -⟩
    simp [hrequests] at hr
  have hplace : ∀ m ∈ conversationRows s.rows id, m ∉ s.messages →
      ((∀ x ∈ s.messages, m.cursor < x.cursor) ∧ s.hasOlderMessages = true) ∨
        (s.hasNewerMessages = true ∧ ∀ x ∈ s.messages, x.cursor < m.cursor) := by
    intro m hm hnot
    rcases h.placed hjump id hid m hm with hloaded | hbefore | ⟨hnewer, hall⟩ | ⟨-, hcome⟩
    · exact absurd ((loaded_iff_of_none hempty).mp hloaded) hnot
    · exact .inl ⟨fun x hx => hbefore.cursor x (.inl hx), hbefore.flag (no_page_of_none hempty)⟩
    · exact .inr ⟨hnewer, fun x hx => hall x (.inl hx)⟩
    · rcases hcome with hoff | hevent | ⟨r, hr, -⟩
      · simp [hconnected] at hoff
      · simp [hevents] at hevent
      · simp [hrequests] at hr
  refine ⟨fun m hm => h.stored.mem_rows hid hm, ?_, ?_, ?_⟩
  · intro m hm a ha b hb hlow hhigh
    by_contra hnot
    rcases hplace m hm hnot with ⟨hall, -⟩ | ⟨-, hall⟩
    · exact lt_asymm hlow (hall a ha)
    · exact lt_asymm hhigh (hall b hb)
  · rintro hne ⟨m, hm, hall⟩
    have hnot : m ∉ s.messages := fun hmem => lt_irrefl _ (hall m hmem)
    rcases hplace m hm hnot with ⟨-, hflag⟩ | ⟨-, hafter⟩
    · exact hflag
    · obtain ⟨x, hx⟩ := List.exists_mem_of_ne_nil _ hne
      exact absurd (hall x hx) (lt_asymm (hafter x hx))
  · rintro hne ⟨m, hm, hall⟩
    have hnot : m ∉ s.messages := fun hmem => lt_irrefl _ (hall m hmem)
    rcases hplace m hm hnot with ⟨hbefore, -⟩ | ⟨hflag, -⟩
    · obtain ⟨x, hx⟩ := List.exists_mem_of_ne_nil _ hne
      exact absurd (hall x hx) (lt_asymm (hbefore x hx))
    · exact hflag

/-! ### What requests stand on -/

theorem RequestOk.active (h : s.RequestOk r) (hkind : ∀ n, r.kind ≠ .reconcile n) :
    s.activeConversation = some r.conversation := by
  apply h.owner
  by_contra hfalse
  obtain ⟨n, hn⟩ := h.outlives (Bool.eq_false_iff.mpr hfalse)
  exact hkind n hn

/-- A request of the same browser on the same table. -/
theorem RequestOk.congr {t : HistoryState} (h : s.RequestOk r)
    (hactive : t.activeConversation = s.activeConversation) (hrows : t.rows = s.rows)
    (hgrounded : t.Grounded r) : t.RequestOk r :=
  ⟨fun hab => hactive.trans (h.owner hab), h.outlives, hgrounded, fun a ha => by
    rw [hrows]
    exact h.answered a ha⟩

/-- A window that grows carries what stood on it. -/
theorem grounded_grow {t : HistoryState} (h : s.Grounded r) (hrows : t.rows = s.rows)
    (hmessages : ∀ x ∈ s.messages, x ∈ t.messages)
    (hend : ∀ after, r.kind = .newer after → s.hasNewerMessages = true →
      (∀ w ∈ s.messages, w.cursor ≤ after) →
        t.hasNewerMessages = true ∧ ∀ w ∈ t.messages, w.cursor ≤ after) : t.Grounded r := by
  unfold Grounded at h ⊢
  split at h
  next =>
    obtain ⟨w, hw, hcursor⟩ := h
    exact ⟨w, hmessages w hw, hcursor⟩
  next after hkind =>
    obtain ⟨hnewer, ⟨w, hw, hcursor⟩, hmax⟩ := h
    obtain ⟨hnewer', hmax'⟩ := hend after hkind hnewer hmax
    exact ⟨hnewer', ⟨w, hmessages w hw, hcursor⟩, hmax'⟩
  next =>
    rw [hrows]
    exact h
  next => exact h
  next => trivial

/-- What stands on neither end of the window is not changed by the window. -/
theorem grounded_of_end {t : HistoryState} (h : s.Grounded r) (hrows : t.rows = s.rows)
    (holder : r.kind.isOlder = false) (hnewer : r.kind.isNewer = false) : t.Grounded r := by
  unfold Grounded at h ⊢
  split at h
  next hkind =>
    rw [hkind] at holder
    cases holder
  next hkind =>
    rw [hkind] at hnewer
    cases hnewer
  next =>
    rw [hrows]
    exact h
  next => exact h
  next => trivial

/-! ### The cache -/

/-- The entries of the cache have messages of their conversations. -/
def CacheOf (rows : List Message) (cache : ConversationMessageCache) : Prop :=
  ∀ id entry, cache.get? id = some entry → ∀ m ∈ entry.messages, m ∈ conversationRows rows id

section Cache

variable {rows : List Message} {cache : ConversationMessageCache} {msg : Message}

theorem mem_of_mem_normalizeEntry {entry : CachedConversationEntry}
    (hm : m ∈ (ConversationMessageCache.normalizeEntry entry).messages) : m ∈ entry.messages := by
  unfold ConversationMessageCache.normalizeEntry at hm
  split at hm
  next => exact (List.mergeSort_perm _ _).mem_iff.mp (List.mem_of_mem_take hm)
  next => exact hm

theorem CacheOf.set (h : CacheOf rows cache) {entry : InternalCachedConversationEntry}
    (hentry : ∀ m ∈ entry.messages, m ∈ conversationRows rows id) :
    CacheOf rows (cache.set id entry) := by
  intro k e hk m hm
  rcases (cache.get?_set_eq_some_iff).mp hk with ⟨rfl, rfl⟩ | ⟨-, hk⟩
  · exact hentry m hm
  · exact h k e hk m hm

theorem CacheOf.pop (h : CacheOf rows cache) (id : Text) : CacheOf rows (cache.pop id) :=
  fun k e hk => h k e ((cache.get?_pop_eq_some_iff).mp hk).2

theorem CacheOf.evict (h : CacheOf rows cache) :
    CacheOf rows (ConversationMessageCache.evict cache) := by
  unfold ConversationMessageCache.evict
  split
  · split
    · exact h.pop _
    · exact h
  · exact h

theorem CacheOf.store (h : CacheOf rows cache) {entry : CachedConversationEntry}
    (hentry : ∀ m ∈ entry.messages, m ∈ conversationRows rows id) :
    CacheOf rows (cache.store id entry) :=
  ((h.pop id).set fun m hm => hentry m (mem_of_mem_normalizeEntry hm)).evict

theorem CacheOf.get (h : CacheOf rows cache) (id : Text) : CacheOf rows (cache.get id).2 := by
  unfold ConversationMessageCache.get
  split
  next => exact h
  next entry hentry => exact (h.pop id).set (h id entry hentry)

theorem CacheOf.of_get (h : CacheOf rows cache) {entry : CachedConversationEntry}
    (hget : (cache.get id).1 = some entry) :
    ∀ m ∈ entry.messages, m ∈ conversationRows rows id := by
  unfold ConversationMessageCache.get at hget
  split at hget
  next => cases hget
  next internal hinternal =>
    obtain rfl := Option.some.inj hget
    exact h id internal hinternal

theorem CacheOf.addMessage (h : CacheOf rows cache) (hmsg : msg ∈ rows) :
    CacheOf rows (cache.addMessage msg.conversationKey msg).2 := by
  have hmine : msg ∈ conversationRows rows msg.conversationKey :=
    mem_conversationRows.mpr ⟨hmsg, rfl⟩
  unfold ConversationMessageCache.addMessage
  split
  next =>
    refine (h.set fun m hm => ?_).evict
    obtain rfl := List.mem_singleton.mp hm
    exact hmine
  next entry hentry =>
    split
    · exact h
    · split
      · exact h
      · refine (h.pop _).set fun m hm => ?_
        rcases List.mem_append.mp (mem_of_mem_normalizeEntry hm) with hm | hm
        · exact h _ entry hentry m hm
        · obtain rfl := List.mem_singleton.mp hm
          exact hmine

end Cache

/-! ### The server's steps -/

section Store

variable {m : Message}

/-- What is known of an answer survives a message that is stored behind its conversation. -/
theorem AnswerOk.store {rows : List Message} {a : HistoryAnswer} (h : AnswerOk rows r a)
    (hnew : ∀ x ∈ conversationRows rows m.conversationKey, x.cursor < m.cursor)
    (holder : ∀ before from_, r.kind = .older before from_ → m.conversationKey = r.conversation →
      ¬ m.cursor < before) : AnswerOk (rows ++ [m]) r a := by
  obtain ⟨hknown, hspec⟩ := h
  have hbehind : m.conversationKey = r.conversation → ∀ x ∈ a.messages, x.cursor < m.cursor := by
    intro hkey x hx
    exact hnew x (hkey ▸ hknown x hx)
  refine ⟨fun x hx => mem_conversationRows_snoc.mpr (.inl (hknown x hx)), ?_⟩
  cases hkind : r.kind with
  | latest => trivial
  | reconcile n => trivial
  | older before from_ =>
      rw [hkind] at hspec
      refine ⟨hspec.1, fun x hx hlt hnot => ?_⟩
      rcases mem_conversationRows_snoc.mp hx with hx | ⟨rfl, hkey⟩
      · exact hspec.2 x hx hlt hnot
      · exact absurd hlt (holder before from_ hkind hkey)
  | newer after =>
      rw [hkind] at hspec
      refine ⟨hspec.1, fun x hx hlt hnot => ?_⟩
      rcases mem_conversationRows_snoc.mp hx with hx | ⟨rfl, hkey⟩
      · exact hspec.2 x hx hlt hnot
      · exact hbehind hkey
  | around messageId =>
      rw [hkind] at hspec
      intro x hx hnot
      rcases mem_conversationRows_snoc.mp hx with hx | ⟨rfl, hkey⟩
      · exact hspec x hx hnot
      · exact .inr (hbehind hkey)

theorem Stored.store (h : s.Stored) (hid : m.id ∉ s.rows.map fun r => r.id)
    (hok : s.InStep (.store m)) :
    Stored { s with
      rows := s.rows ++ [m]
      events := if s.connected then s.events ++ [m] else s.events } where
  ids := by
    rw [List.map_append, List.nodup_append]
    refine ⟨h.ids, List.nodup_singleton _, ?_⟩
    rintro a ha b hb rfl
    obtain rfl : a = m.id := List.mem_singleton.mp hb
    exact hid ha
  order k := by
    dsimp only
    rw [conversationRows_append, InOrder, List.pairwise_append]
    refine ⟨h.order k, (List.pairwise_singleton _ _).filter _, fun a ha b hb => ?_⟩
    obtain ⟨hb, hkey⟩ := mem_conversationRows.mp hb
    obtain rfl := List.mem_singleton.mp hb
    exact (hok a (hkey.symm ▸ ha)).1
  contents k := by
    dsimp only
    rw [conversationRows_append, List.pairwise_append]
    refine ⟨h.contents k, (List.pairwise_singleton _ _).filter _, fun a ha b hb => ?_⟩
    obtain ⟨hb, hkey⟩ := mem_conversationRows.mp hb
    obtain rfl := List.mem_singleton.mp hb
    exact (hok a (hkey.symm ▸ ha)).2
  events := by
    dsimp only
    split
    next =>
      obtain ⟨before, hrows⟩ := h.events
      exact ⟨before, by rw [← hrows, List.append_assoc]⟩
    next hoff =>
      rw [h.offline (Bool.eq_false_iff.mpr hoff)]
      exact List.nil_suffix
  offline hoff := by
    dsimp only at hoff ⊢
    rw [if_neg (by simp [hoff])]
    exact h.offline hoff
  cache k entry hentry x hx :=
    mem_conversationRows_snoc.mpr (.inl (h.cache k entry hentry x hx))
  messages x hx := by
    obtain ⟨hrows, hactive⟩ := h.messages x hx
    exact ⟨List.mem_append_left _ hrows, hactive⟩

theorem RequestOk.store (h : s.RequestOk r) (hs : s.Stored) (hok : s.InStep (.store m))
    (events : List Message) :
    RequestOk { s with rows := s.rows ++ [m], events := events } r := by
  refine ⟨h.owner, h.outlives, ?_, fun a ha => ?_⟩
  · have hgrounded := h.grounded
    unfold Grounded at hgrounded ⊢
    split at hgrounded
    next => exact hgrounded
    next => exact hgrounded
    next =>
      obtain ⟨t, ht, htid⟩ := hgrounded
      exact ⟨t, mem_conversationRows_snoc.mpr (.inl ht), htid⟩
    next => exact hgrounded
    next => trivial
  · refine (h.answered a ha).store (fun x hx => (hok x hx).1) fun before from_ hkind hkey hlt => ?_
    have hactive := h.active fun n hn => by rw [hkind] at hn; cases hn
    have hgrounded := h.grounded
    simp only [Grounded, hkind] at hgrounded
    obtain ⟨w, hw, rfl⟩ := hgrounded
    exact lt_asymm hlt (hok w (hkey.symm ▸ hs.mem_rows hactive hw)).1

/-- A message is stored: it is behind all that is loaded, and under way or missed. -/
theorem Tracked.store (h : s.Tracked) (hok : s.InStep (.store m)) :
    (s.apply (.store m)).Tracked := by
  simp only [apply]
  split
  next => exact h
  next hid =>
    refine ⟨h.stored.store hid hok, fun r hr => (h.requests r hr).store h.stored hok _, h.apart,
      h.jumping, h.browsing, fun hjump k hk x hx => ?_⟩
    rcases mem_conversationRows_snoc.mp hx with hx | ⟨rfl, hkey⟩
    · rcases h.placed hjump k hk x hx with hloaded | hbefore | hnewer | ⟨hlast, hcome⟩
      · exact .inl hloaded
      · exact .inr (.inl ⟨hbefore.cursor, hbefore.flag, hbefore.pages⟩)
      · exact .inr (.inr (.inl hnewer))
      · refine .inr (.inr (.inr ⟨hlast, hcome.imp_right (Or.imp_left fun hevent => ?_)⟩))
        dsimp only
        split
        · exact List.mem_append_left _ hevent
        · exact hevent
    · by_cases hnewer : s.hasNewerMessages = true
      · refine .inr (.inr (.inl ⟨hnewer, fun y hy => ?_⟩))
        exact (hok y (hkey.symm ▸ h.mem_of_loaded hk hy)).1
      · refine .inr (.inr (.inr ⟨Bool.eq_false_iff.mpr hnewer, ?_⟩))
        by_cases hconnected : s.connected = true
        · exact .inr (.inl (by simp [hconnected]))
        · exact .inl (Bool.eq_false_iff.mpr hconnected)

end Store

/-! ### Events and the connection -/

section Events

variable {e : Message} {rest : List Message}

/-- What is not under way any more was stored before the next event. -/
theorem Stored.before_event (h : s.Stored) (hevents : s.events = e :: rest)
    (hm : m ∈ conversationRows s.rows e.conversationKey) (hnot : m ∉ s.events) :
    m.cursor < e.cursor := by
  obtain ⟨before, hrows⟩ := h.events
  rw [hevents] at hrows hnot
  have horder := h.order e.conversationKey
  rw [← hrows, conversationRows_append, InOrder, List.pairwise_append] at horder
  obtain ⟨hmem, hkey⟩ := mem_conversationRows.mp hm
  rw [← hrows] at hmem
  refine horder.2.2 m (mem_conversationRows.mpr ⟨?_, hkey⟩) e
    (mem_conversationRows.mpr ⟨List.mem_cons_self, rfl⟩)
  exact (List.mem_append.mp hmem).resolve_right hnot

theorem Stored.event_mem (h : s.Stored) (hevents : s.events = e :: rest) : e ∈ s.rows :=
  h.events.subset (hevents ▸ List.mem_cons_self)

theorem Stored.connected_of_event (h : s.Stored) (hevents : s.events = e :: rest) :
    s.connected = true := by
  by_contra hoff
  rw [h.offline (Bool.eq_false_iff.mpr hoff)] at hevents
  cases hevents

theorem Stored.deliver (h : s.Stored) (hevents : s.events = e :: rest)
    {cache : ConversationMessageCache} (hcache : CacheOf s.rows cache) :
    Stored { s with events := rest, cache := cache } where
  ids := h.ids
  order := h.order
  contents := h.contents
  events := (List.suffix_cons e rest).trans (hevents ▸ h.events)
  offline hoff := by
    rw [h.connected_of_event hevents] at hoff
    cases hoff
  cache := hcache
  messages := h.messages

/-- A delivered event that the list does not take. -/
theorem Tracked.skip (h : s.Tracked) (hevents : s.events = e :: rest)
    {cache : ConversationMessageCache} (hcache : CacheOf s.rows cache)
    (hskip : s.activeConversation = some e.conversationKey → s.hasNewerMessages = false →
      ¬ s.Jumping → s.Loaded e ∨ s.Unanswered) :
    Tracked { s with events := rest, cache := cache } := by
  refine ⟨h.stored.deliver hevents hcache, fun r hr => (h.requests r hr).congr rfl rfl
    (h.requests r hr).grounded, h.apart, h.jumping, h.browsing, fun hjump =>
      (h.placed hjump).congr rfl rfl rfl (fun _ => Iff.rfl) rfl rfl
        fun k hk x hx hlast hcome => ?_⟩
  rcases hcome with hoff | hevent | hunanswered
  · exact .inr (.inl hoff)
  · rw [hevents] at hevent
    rcases List.mem_cons.mp hevent with rfl | hevent
    · have hkey : s.activeConversation = some x.conversationKey := by
        rw [(mem_conversationRows.mp hx).2]
        exact hk
      exact (hskip hkey hlast hjump).imp_right fun hunanswered => .inr (.inr hunanswered)
    · exact .inr (.inr (.inl hevent))
  · exact .inr (.inr (.inr hunanswered))

/-- A delivered event that the list takes. -/
theorem Tracked.take (h : s.Tracked) (hevents : s.events = e :: rest)
    (hactive : s.activeConversation = some e.conversationKey)
    (hlast : s.hasNewerMessages = false) {messages : List Message} {seen : List Text}
    (hmessages : ∀ x, x ∈ messages ↔ x ∈ s.messages ∨ x = e) :
    Tracked { s with events := rest, messages := messages, seenMessageContent := seen } := by
  have hstored := h.stored.deliver hevents h.stored.cache
  have hloaded (x : Message) : Loaded
      { s with events := rest, messages := messages, seenMessageContent := seen } x ↔
        s.Loaded x ∨ x = e := by
    constructor
    · rintro (hx | hx)
      · exact ((hmessages x).mp hx).imp_left .inl
      · exact .inl (.inr hx)
    · rintro ((hx | hx) | hx)
      · exact .inl ((hmessages x).mpr (.inl hx))
      · exact .inr hx
      · exact .inl ((hmessages x).mpr (.inr hx))
  refine ⟨⟨hstored.ids, hstored.order, hstored.contents, hstored.events, hstored.offline,
    hstored.cache, fun x hx => ?_⟩, fun r hr => (h.requests r hr).congr rfl rfl ?_, h.apart,
    fun hjump => ⟨(h.jumping hjump).1, fun hnewer => ?_⟩, fun _ _ hnewer => ?_,
    fun hjump k hk x hx => ?_⟩
  · rcases (hmessages x).mp hx with hx | rfl
    · exact h.stored.messages x hx
    · exact ⟨h.stored.event_mem hevents, hactive⟩
  · exact grounded_grow (h.requests r hr).grounded rfl (fun x hx => (hmessages x).mpr (.inl hx))
      fun _ _ hnewer => absurd hnewer (by simp [hlast])
  · exact absurd hnewer (by simp [hlast])
  · exact absurd hnewer (by simp [hlast])
  · by_cases hxe : x = e
    · exact .inl ((hloaded x).mpr (.inr hxe))
    · have hkey : k = e.conversationKey := Option.some.inj (hk.symm.trans hactive)
      rcases h.placed hjump k hk x hx with hx' | hbefore | ⟨hnewer, -⟩ | ⟨-, hcome⟩
      · exact .inl ((hloaded x).mpr (.inl hx'))
      · by_cases hevent : x ∈ s.events
        · rw [hevents] at hevent
          exact .inr (.inr (.inr ⟨hlast, .inr (.inl ((List.mem_cons.mp hevent).resolve_left hxe))⟩))
        · refine .inr (.inl ⟨fun y hy => ?_, hbefore.flag, hbefore.pages⟩)
          rcases (hloaded y).mp hy with hy | rfl
          · exact hbefore.cursor y hy
          · exact h.stored.before_event hevents (hkey ▸ hx) hevent
      · exact absurd hnewer (by simp [hlast])
      · refine .inr (.inr (.inr ⟨hlast, hcome.imp_right (Or.imp_left fun hevent => ?_)⟩))
        rw [hevents] at hevent
        exact (List.mem_cons.mp hevent).resolve_left hxe

/-- What the list does with a message of its conversation. -/
theorem observeMessage_active (hactive : s.activeConversation = some e.conversationKey)
    (hlast : s.hasNewerMessages = false) :
    s.observeMessage e =
      if e.contentKey ∈ s.seenMessageContent then s
      else
        { s with
          messages := if e.id ∈ s.messages.map (fun n => n.id) then s.messages
            else s.messages ++ [e]
          seenMessageContent :=
            ActiveMessages.noteContent
              { messages := s.messages, seenMessageContent := s.seenMessageContent }
              e.contentKey } := by
  unfold observeMessage
  rw [if_pos hactive, if_neg (by simp [hlast])]
  by_cases hseen : e.contentKey ∈ s.seenMessageContent
  · simp [ActiveMessages.appendActiveMessageIfNew, PendingAcks.applyPendingAck, hseen]
  · simp [ActiveMessages.appendActiveMessageIfNew, PendingAcks.applyPendingAck, hseen]

theorem Tracked.deliver (h : s.Tracked) (hok : s.InStep .deliver) : (s.apply .deliver).Tracked := by
  simp only [apply]
  split
  next => exact h
  next e rest hevents =>
    have hrow := h.stored.event_mem hevents
    by_cases hactive : s.activeConversation = some e.conversationKey
    · by_cases hnewer : s.hasNewerMessages = true
      · have hsame : observeMessage { s with events := rest } e =
            { s with events := rest, cache := s.cache } := by
          unfold observeMessage
          rw [if_pos hactive, if_pos hnewer]
        rw [hsame]
        exact h.skip hevents h.stored.cache fun _ hlast => absurd hlast (by simp [hnewer])
      · have hlast : s.hasNewerMessages = false := Bool.eq_false_iff.mpr hnewer
        rw [observeMessage_active (s := { s with events := rest }) hactive hlast]
        split
        next hseen =>
          refine h.skip hevents h.stored.cache fun _ _ hjump => ?_
          exact hok e (by simp [hevents]) hactive hlast hjump hseen
        next =>
          refine h.take hevents hactive hlast fun x => ?_
          split
          next hid =>
            refine ⟨.inl, fun hx => hx.elim (fun hx => hx) ?_⟩
            rintro rfl
            obtain ⟨w, hw, hwid⟩ := List.mem_map.mp hid
            have hkey := h.stored.mem_rows hactive hw
            rw [← (h.stored.identified _).id w hkey x (mem_conversationRows.mpr ⟨hrow, rfl⟩) hwid]
            exact hw
          next => simp
    · have hother : observeMessage { s with events := rest } e =
          { s with events := rest, cache := (s.cache.addMessage e.conversationKey e).2 } := by
        unfold observeMessage
        rw [if_neg hactive]
      rw [hother]
      exact h.skip hevents (CacheOf.addMessage h.stored.cache hrow) fun hkey => absurd hkey hactive

end Events

theorem Tracked.disconnect (h : s.Tracked) : (s.apply .disconnect).Tracked := by
  have hs := h.stored
  exact ⟨⟨hs.ids, hs.order, hs.contents, List.nil_suffix, fun _ => rfl, hs.cache, hs.messages⟩,
    fun r hr => (h.requests r hr).congr rfl rfl (h.requests r hr).grounded, h.apart, h.jumping,
    h.browsing, fun hjump => (h.placed hjump).congr rfl rfl rfl (fun _ => Iff.rfl) rfl rfl
      fun _ _ _ _ _ _ => .inr (.inl rfl)⟩

/-- A page that is asked for makes every other place unnecessary. -/
theorem placed_of_unanswered (hlast : s.hasNewerMessages = false) (h : s.Unanswered) : s.Placed :=
  fun _ _ _ _ => .inr (.inr (.inr ⟨hlast, .inr (.inr h)⟩))

/-- A reconcile is asked for at the end of the conversation. -/
theorem Tracked.reconcileFromBackend (h : s.Stored) (hrequests : ∀ r ∈ s.requests, s.RequestOk r)
    (hapart : s.requests.Pairwise Apart) (hid : s.activeConversation = some id)
    (hlast : s.hasNewerMessages = false) (hjump : ¬ s.Jumping) (abortable : Bool) :
    (s.reconcileFromBackend id abortable).Tracked := by
  have hstill : ¬ (s.reconcileFromBackend id abortable).Jumping := by
    rintro ⟨r, hr, haround⟩
    rcases List.mem_append.mp hr with hr | hr
    · exact hjump ⟨r, hr, haround⟩
    · obtain rfl := List.mem_singleton.mp hr
      cases haround
  refine ⟨⟨h.ids, h.order, h.contents, h.events, h.offline, h.cache, h.messages⟩,
    fun r hr => ?_, ?_, fun hj => absurd hj hstill, fun _ _ hnewer => ?_, fun _ => ?_⟩
  · rcases List.mem_append.mp hr with hr | hr
    · exact (hrequests r hr).congr rfl rfl (hrequests r hr).grounded
    · obtain rfl := List.mem_singleton.mp hr
      exact ⟨fun _ => hid, fun _ => ⟨_, rfl⟩, Nat.succ_pos _, fun a ha => by cases ha⟩
  · refine List.pairwise_append.mpr ⟨hapart, List.pairwise_singleton _ _, fun a _ b hb => ?_⟩
    obtain rfl := List.mem_singleton.mp hb
    exact ⟨fun hboth => (by cases hboth.2), fun hboth => (by cases hboth.2)⟩
  · exact absurd hnewer (by simp [HistoryState.reconcileFromBackend, hlast])
  · refine placed_of_unanswered hlast
      ⟨_, List.mem_append_right _ (List.mem_singleton_self _), ?_, rfl⟩
    simp [accepts, HistoryState.reconcileFromBackend, hid]

theorem Tracked.reconnect (h : s.Tracked) (hok : s.InStep .reconnect) :
    (s.apply .reconnect).Tracked := by
  have hs := h.stored
  simp only [apply]
  split
  next => exact h
  next hoff =>
    have hempty : s.events = [] := hs.offline (Bool.eq_false_iff.mpr hoff)
    have hstored : Stored { s with connected := true } :=
      ⟨hs.ids, hs.order, hs.contents, hs.events, fun hfalse => (by cases hfalse), hs.cache,
        hs.messages⟩
    unfold reconcileOnReconnect
    dsimp only
    split
    next hnone =>
      refine ⟨hstored, fun r hr => (h.requests r hr).congr rfl rfl (h.requests r hr).grounded,
        h.apart, h.jumping, h.browsing, fun _ k hk => ?_⟩
      have hk' : s.activeConversation = some k := hk
      rw [hnone] at hk'
      cases hk'
    next id hid =>
      split
      next hnewer =>
        refine ⟨⟨hs.ids, hs.order, hs.contents, hs.events, fun hfalse => (by cases hfalse),
          hs.cache, hs.messages⟩,
          fun r hr => (h.requests r hr).congr rfl rfl (h.requests r hr).grounded,
          h.apart, h.jumping, h.browsing, fun hjump => (h.placed hjump).congr rfl rfl rfl
            (fun _ => Iff.rfl) rfl rfl fun _ _ _ _ hlast _ => ?_⟩
        exact absurd hnewer (by simp [hlast])
      next hlast =>
        have hlast : s.hasNewerMessages = false := Bool.eq_false_iff.mpr hlast
        exact Tracked.reconcileFromBackend
          (s := { s with connected := true, pendingReconnectReconcile := false })
          ⟨hs.ids, hs.order, hs.contents, hs.events, fun hfalse => (by cases hfalse), hs.cache,
            hs.messages⟩
          (fun r hr => (h.requests r hr).congr rfl rfl (h.requests r hr).grounded) h.apart hid hlast
          (hok hlast) false

end HistoryState

end RemoteTerm
