import RemoteTerm.Frontend.HistoryPlaces

/-!
# The requests of the browser

A change of the conversation or of the target asks for its page, and so do the ends of the
window. These steps and the answers of the server keep the places of the messages.
-/

namespace RemoteTerm

open Library

namespace HistoryState

variable {s : HistoryState} {id : Text} {m : Message} {r : HistoryRequest}

/-! ### Navigation and requests -/

section Navigate

variable {conversation : Option Text} {target : Option Nat}

theorem abortRequests_not_jumping (h : ∀ r ∈ s.requests, s.RequestOk r) :
    ¬ (s.abortRequests conversation target).Jumping := by
  rintro ⟨r, hr, haround⟩
  obtain ⟨hr, hab⟩ := List.mem_filter.mp hr
  obtain ⟨n, hn⟩ := (h r hr).outlives (by simpa using hab)
  rw [hn] at haround
  cases haround

/-- A request that no effect aborts. -/
theorem abortRequests_requestOk (conversation : Option Text) (target : Option Nat)
    (h : ∀ r ∈ s.requests, s.RequestOk r) {t : HistoryState} (hrows : t.rows = s.rows) :
    ∀ r ∈ (s.abortRequests conversation target).requests, t.RequestOk r := by
  intro r hr
  obtain ⟨hr, hab⟩ := List.mem_filter.mp hr
  have hab : r.abortable = false := by simpa using hab
  have hok := h r hr
  refine ⟨fun htrue => ?_, hok.outlives, ?_, fun a ha => ?_⟩
  · rw [hab] at htrue
    cases htrue
  · obtain ⟨n, hn⟩ := hok.outlives hab
    exact grounded_of_end hok.grounded hrows (by rw [hn]; rfl) (by rw [hn]; rfl)
  · rw [hrows]
    exact hok.answered a ha

/-- After an abort nothing that is pending is to be merged. -/
theorem abortRequests_accepts (conversation : Option Text) (target : Option Nat)
    (h : ∀ r ∈ s.requests, s.RequestOk r) {t : HistoryState}
    (hlatest : t.latestReconcileRequestId = 0) :
    ∀ r ∈ (s.abortRequests conversation target).requests, t.accepts r = false ∧
      r.kind.isOlder = false ∧ r.kind.isNewer = false := by
  intro r hr
  obtain ⟨hr, hab⟩ := List.mem_filter.mp hr
  obtain ⟨n, hn⟩ := (h r hr).outlives (by simpa using hab)
  have hpos := (h r hr).grounded
  simp only [Grounded, hn] at hpos
  refine ⟨?_, by rw [hn]; rfl, by rw [hn]; rfl⟩
  simp only [accepts, hn, hlatest, Bool.and_eq_false_iff, decide_eq_false_iff_not]
  exact .inr (by omega)

theorem Stored.cacheLeft (h : s.Stored) : CacheOf s.rows (s.cacheLeft conversation) := by
  unfold HistoryState.cacheLeft
  split
  next => exact h.cache
  next prevId hprev =>
    split
    next => exact CacheOf.store h.cache fun m hm => h.mem_rows hprev hm
    next => exact h.cache

/-- The target is cleared: no answer is lost. -/
theorem Tracked.clearTarget (h : s.Tracked) (hclear : ∀ r ∈ s.requests, s.accepts r = false)
    (hjump : ¬ s.Jumping) : (s.abortRequests s.activeConversation target).Tracked := by
  have hs := h.stored
  have hnone := abortRequests_accepts s.activeConversation target h.requests
    (t := s.abortRequests s.activeConversation target) rfl
  refine ⟨⟨hs.ids, hs.order, hs.contents, hs.events, hs.offline, hs.cache, hs.messages⟩,
    abortRequests_requestOk _ _ h.requests rfl, h.apart.filter _,
    fun hj => absurd hj (abortRequests_not_jumping h.requests),
    fun k hk hnewer _ => ⟨fun r hr => (hnone r hr).1, (h.browsing k hk hnewer hjump).2⟩,
    fun _ k hk x hx => ?_⟩
  have hloaded : ∀ y, Loaded (s.abortRequests s.activeConversation target) y ↔ s.Loaded y := by
    intro y
    rw [loaded_iff_of_none fun r hr => (hnone r hr).1, loaded_iff_of_none hclear]
    rfl
  have hpages := no_page_of_none fun r hr => (hnone r hr).1
  rcases h.placed hjump k hk x hx with hx' | hbefore | ⟨hnewer, hall⟩ | ⟨hlast, hcome⟩
  · exact .inl ((hloaded x).mpr hx')
  · exact .inr (.inl ⟨fun y hy => hbefore.cursor y ((hloaded y).mp hy),
      fun _ => hbefore.flag (no_page_of_none hclear), fun p hp => absurd hp (hpages p)⟩)
  · exact .inr (.inr (.inl ⟨hnewer, fun y hy => hall y ((hloaded y).mp hy)⟩))
  · refine .inr (.inr (.inr ⟨hlast, hcome.imp_right (Or.imp_right ?_)⟩))
    rintro ⟨r, hr, haccepts, -⟩
    rw [hclear r hr] at haccepts
    cases haccepts

/-- A conversation is opened at its end. -/
theorem Tracked.openConversation (h : Stored { s with messages := [] })
    (hrequests : ∀ r ∈ s.requests, s.RequestOk r) (hapart : s.requests.Pairwise Apart)
    (hid : s.activeConversation = some id) (hlast : s.hasNewerMessages = false)
    (hjump : ¬ s.Jumping)
    (hkinds : ∀ r ∈ s.requests, r.kind.isOlder = false ∧ r.kind.isNewer = false) :
    (s.openConversation id).Tracked := by
  have hcache : CacheOf s.rows s.cache := h.cache
  have hground : ∀ {t : HistoryState}, t.rows = s.rows → ∀ r ∈ s.requests, t.Grounded r :=
    fun hrows r hr =>
      grounded_of_end (hrequests r hr).grounded hrows (hkinds r hr).1 (hkinds r hr).2
  unfold HistoryState.openConversation
  split
  next cached cache hget =>
    have hcached : ∀ m ∈ cached.messages, m ∈ conversationRows s.rows id :=
      hcache.of_get (by rw [hget])
    have hnext : CacheOf s.rows cache := by
      have hafter := hcache.get id
      rwa [hget] at hafter
    refine Tracked.reconcileFromBackend
      (s := { s with
        cache := cache
        messages := cached.messages
        seenMessageContent := cached.messages.map Message.contentKey
        hasOlderMessages := cached.hasOlderMessages })
      ⟨h.ids, h.order, h.contents, h.events, h.offline, hnext, fun m hm => ?_⟩
      (fun r hr => (hrequests r hr).congr rfl rfl (hground (by rfl) r hr)) hapart hid hlast
      hjump true
    obtain ⟨hrows, hkey⟩ := mem_conversationRows.mp (hcached m hm)
    exact ⟨hrows, hkey ▸ hid⟩
  next cache hget =>
    have hnext : CacheOf s.rows cache := by
      have hafter := hcache.get id
      rwa [hget] at hafter
    have hstill : ¬ Jumping { s with
        cache := cache
        messages := []
        requests := s.requests ++ [{ kind := .latest, conversation := id }] } := by
      rintro ⟨r, hr, haround⟩
      rcases List.mem_append.mp hr with hr | hr
      · exact hjump ⟨r, hr, haround⟩
      · obtain rfl := List.mem_singleton.mp hr
        cases haround
    refine ⟨⟨h.ids, h.order, h.contents, h.events, h.offline, hnext, fun m hm => by cases hm⟩,
      fun r hr => ?_, ?_, fun hj => absurd hj hstill, fun _ _ hnewer => ?_, fun _ => ?_⟩
    · rcases List.mem_append.mp hr with hr | hr
      · exact (hrequests r hr).congr rfl rfl (hground (by rfl) r hr)
      · obtain rfl := List.mem_singleton.mp hr
        exact ⟨fun _ => hid, fun hab => (by cases hab), trivial, fun a ha => by cases ha⟩
    · refine List.pairwise_append.mpr ⟨hapart, List.pairwise_singleton _ _, fun a _ b hb => ?_⟩
      obtain rfl := List.mem_singleton.mp hb
      exact ⟨fun hboth => (by cases hboth.2), fun hboth => (by cases hboth.2)⟩
    · exact absurd hnewer (by simp [hlast])
    · refine placed_of_unanswered hlast
        ⟨_, List.mem_append_right _ (List.mem_singleton_self _), ?_, rfl⟩
      simp [accepts, hid]

/-- A jump asks for its window. -/
theorem Tracked.jump (h : s.Tracked) {messageId : Nat}
    (htarget : ∃ t ∈ conversationRows s.rows id, t.id = messageId)
    {cache : ConversationMessageCache} (hcache : CacheOf s.rows cache) (hasNewer : Bool) :
    Tracked { s.abortRequests (some id) (some messageId) with
      olderFetchedFrom := none
      hasNewerMessages := hasNewer
      cache := cache
      messages := []
      requests := (s.abortRequests (some id) (some messageId)).requests ++
        [{ kind := .around messageId, conversation := id }] } := by
  have hs := h.stored
  refine ⟨⟨hs.ids, hs.order, hs.contents, hs.events, hs.offline, hcache, fun m hm => by cases hm⟩,
    fun r hr => ?_, ?_, fun _ => ⟨fun r hr => ?_, fun _ => rfl⟩, fun _ _ _ hjump => ?_,
    fun hjump => ?_⟩
  · rcases List.mem_append.mp hr with hr | hr
    · exact abortRequests_requestOk _ _ h.requests (by rfl) r hr
    · obtain rfl := List.mem_singleton.mp hr
      exact ⟨fun _ => rfl, fun hab => (by cases hab), htarget, fun a ha => by cases ha⟩
  · refine List.pairwise_append.mpr
      ⟨h.apart.filter _, List.pairwise_singleton _ _, fun a ha b hb => ?_⟩
    obtain rfl := List.mem_singleton.mp hb
    refine ⟨fun hboth => (by cases hboth.2), fun hboth => ?_⟩
    exact abortRequests_not_jumping h.requests ⟨a, ha, hboth.1⟩
  · rcases List.mem_append.mp hr with hr | hr
    · exact abortRequests_accepts _ _ h.requests rfl r hr
    · obtain rfl := List.mem_singleton.mp hr
      exact ⟨Bool.and_false _, rfl, rfl⟩
  · exact absurd ⟨_, List.mem_append_right _ (List.mem_singleton_self _), rfl⟩ hjump
  · exact absurd ⟨_, List.mem_append_right _ (List.mem_singleton_self _), rfl⟩ hjump

theorem Tracked.navigate (h : s.Tracked) (hok : s.InStep (.navigate conversation target)) :
    (s.apply (.navigate conversation target)).Tracked := by
  have hs := h.stored
  obtain ⟨hclear, hstored⟩ := hok
  simp only [apply, HistoryState.navigate]
  split
  next => exact h
  next hchange =>
    split
    next hsame =>
      obtain ⟨rfl, rfl⟩ := hsame
      obtain ⟨hnone, hjump⟩ := hclear rfl rfl fun htarget => hchange ⟨rfl, htarget.symm⟩
      exact h.clearTarget hnone hjump
    next hopen =>
      have hleft : CacheOf s.rows (s.cacheLeft conversation) := hs.cacheLeft
      have hjump : ¬ (s.abortRequests conversation target).Jumping :=
        abortRequests_not_jumping h.requests
      cases conversation with
      | none =>
          dsimp only
          exact ⟨⟨hs.ids, hs.order, hs.contents, hs.events, hs.offline, hleft,
            fun m hm => (by cases hm)⟩, abortRequests_requestOk none target h.requests rfl,
            h.apart.filter _, fun hj => absurd hj hjump, fun k hk => (by cases hk),
            fun _ k hk => (by cases hk)⟩
      | some id =>
          cases target with
          | none =>
              have hne : ¬ some id = s.activeConversation := fun heq => hopen ⟨heq, rfl⟩
              simp only [if_neg hne]
              exact Tracked.openConversation
                ⟨hs.ids, hs.order, hs.contents, hs.events, hs.offline, hleft,
                  fun m hm => (by cases hm)⟩
                (abortRequests_requestOk (some id) none h.requests rfl) (h.apart.filter _) rfl
                rfl hjump
                fun r hr => (abortRequests_accepts (some id) none h.requests
                  (t := s.abortRequests (some id) none) rfl r hr).2
          | some messageId =>
              exact h.jump (hstored id rfl messageId rfl) hleft _

end Navigate

/-! ### Requests -/

section Requests

variable {l pre post : List HistoryRequest} {i : Nat}

theorem split_at {α : Type} {l : List α} {a : α} (h : l[i]? = some a) :
    ∃ pre post, l = pre ++ a :: post ∧ l.eraseIdx i = pre ++ post ∧
      ∀ b, l.set i b = pre ++ b :: post := by
  obtain ⟨hi, rfl⟩ := List.getElem?_eq_some_iff.mp h
  refine ⟨l.take i, l.drop (i + 1), ?_, List.eraseIdx_eq_take_drop_succ .., fun b => ?_⟩
  · rw [List.getElem_cons_drop, List.take_append_drop]
  · rw [List.set_eq_take_append_cons_drop, if_pos hi]

/-- Requests with the same pages to be merged leave every place. -/
theorem Placed.withRequests (h : s.Placed)
    (hpages : ∀ p, Page { s with requests := l } p ↔ s.Page p)
    (hunanswered : s.Unanswered → Unanswered { s with requests := l }) :
    Placed { s with requests := l } :=
  h.congr rfl rfl rfl hpages rfl rfl fun _ _ _ _ _ hcome =>
    .inr (hcome.imp_right (Or.imp_right hunanswered))

/-- What holds of other requests. -/
theorem Tracked.withRequests (h : s.Tracked) (hok : ∀ r ∈ l, s.RequestOk r)
    (hapart : l.Pairwise Apart) (hjump : Jumping { s with requests := l } ↔ s.Jumping)
    (hwaiting : ∀ P : HistoryRequestKind → Prop, (∀ r ∈ s.requests, P r.kind) → ∀ r ∈ l, P r.kind)
    (haccepts : (∀ r ∈ s.requests, s.accepts r = false) → ∀ r ∈ l, s.accepts r = false)
    (hplaced : ¬ s.Jumping → s.Placed → Placed { s with requests := l }) :
    Tracked { s with requests := l } where
  stored :=
    let hs := h.stored
    ⟨hs.ids, hs.order, hs.contents, hs.events, hs.offline, hs.cache, hs.messages⟩
  requests r hr := (hok r hr).congr rfl rfl (hok r hr).grounded
  apart := hapart
  jumping hj := by
    obtain ⟨hnone, hempty⟩ := h.jumping (hjump.mp hj)
    refine ⟨fun r hr => ⟨haccepts (fun q hq => (hnone q hq).1) r hr, ?_⟩, hempty⟩
    exact hwaiting (fun k => k.isOlder = false ∧ k.isNewer = false)
      (fun q hq => (hnone q hq).2) r hr
  browsing k hk hnewer hj := by
    obtain ⟨hnone, hseen⟩ := h.browsing k hk hnewer fun hs => hj (hjump.mpr hs)
    exact ⟨haccepts hnone, hseen⟩
  placed hj := hplaced (fun hs => hj (hjump.mpr hs)) (h.placed fun hs => hj (hjump.mpr hs))

/-- A page that is not to be merged is asked for. -/
theorem Tracked.ask (h : s.Tracked) (hok : s.RequestOk r) (hjump : ¬ s.Jumping)
    (haround : r.kind.isAround = false) (haccepts : s.accepts r = false)
    (hapart : ∀ a ∈ s.requests, Apart a r) :
    Tracked { s with requests := s.requests ++ [r] } := by
  have hs := h.stored
  have hstill : ¬ Jumping { s with requests := s.requests ++ [r] } := by
    rintro ⟨q, hq, hq'⟩
    rcases List.mem_append.mp hq with hq | hq
    · exact hjump ⟨q, hq, hq'⟩
    · obtain rfl := List.mem_singleton.mp hq
      rw [haround] at hq'
      cases hq'
  refine ⟨⟨hs.ids, hs.order, hs.contents, hs.events, hs.offline, hs.cache, hs.messages⟩,
    fun q hq => ?_, ?_, fun hj => absurd hj hstill, fun k hk hnewer _ => ?_, fun _ => ?_⟩
  · rcases List.mem_append.mp hq with hq | hq
    · exact (h.requests q hq).congr rfl rfl (h.requests q hq).grounded
    · obtain rfl := List.mem_singleton.mp hq
      exact hok.congr rfl rfl hok.grounded
  · refine List.pairwise_append.mpr ⟨h.apart, List.pairwise_singleton _ _, fun a ha b hb => ?_⟩
    obtain rfl := List.mem_singleton.mp hb
    exact hapart a ha
  · obtain ⟨hnone, hseen⟩ := h.browsing k hk hnewer hjump
    refine ⟨fun q hq => ?_, hseen⟩
    rcases List.mem_append.mp hq with hq | hq
    · exact hnone q hq
    · obtain rfl := List.mem_singleton.mp hq
      exact haccepts
  · refine (h.placed hjump).withRequests (fun p => ⟨?_, ?_⟩) ?_
    · rintro ⟨q, hq, hacc, hanswer⟩
      rcases List.mem_append.mp hq with hq | hq
      · exact ⟨q, hq, hacc, hanswer⟩
      · obtain rfl := List.mem_singleton.mp hq
        exact absurd (haccepts.symm.trans hacc) (by simp)
    · rintro ⟨q, hq, hacc, hanswer⟩
      exact ⟨q, List.mem_append_left _ hq, hacc, hanswer⟩
    · rintro ⟨q, hq, hacc, hanswer⟩
      exact ⟨q, List.mem_append_left _ hq, hacc, hanswer⟩

theorem Tracked.loadOlder (h : s.Tracked) (hok : s.InStep .loadOlder) :
    (s.apply .loadOlder).Tracked := by
  simp only [apply, fetchOlderMessages]
  split
  next id oldest hid holdest =>
    split
    next => exact h
    next =>
      have hmem := oldestOf_mem holdest
      have hjump : ¬ s.Jumping := by
        intro hj
        by_cases hnewer : s.hasNewerMessages = true
        · rw [(h.jumping hj).2 hnewer] at hmem
          cases hmem
        · exact hok (Bool.eq_false_iff.mpr hnewer) hj
      refine h.ask ⟨fun _ => hid, fun hab => (by cases hab), ⟨oldest, hmem, rfl⟩,
        fun a ha => (by cases ha)⟩ hjump rfl (Bool.and_false _) fun a _ => ?_
      exact ⟨fun hboth => (by cases hboth.2), fun hboth => (by cases hboth.2)⟩
  next => exact h

theorem Tracked.loadNewer (h : s.Tracked) : (s.apply .loadNewer).Tracked := by
  simp only [apply, fetchNewerMessages]
  split
  next id newest hid hnewest =>
    split
    next => exact h
    next hguard =>
      simp only [Bool.or_eq_true, List.any_eq_true, Bool.not_eq_true', not_or, not_exists,
        not_and, Bool.not_eq_true, Bool.not_eq_false] at hguard
      obtain ⟨hmem, hmax⟩ := newestOf_spec hnewest
      have hjump : ¬ s.Jumping := by
        intro hj
        rw [(h.jumping hj).2 hguard.2] at hmem
        cases hmem
      refine h.ask ⟨fun _ => hid, fun hab => (by cases hab),
        ⟨hguard.2, ⟨newest, hmem, rfl⟩, hmax⟩, fun a ha => (by cases ha)⟩ hjump rfl
        (Bool.and_false _) fun a ha => ⟨fun hboth => ?_, fun hboth => (by cases hboth.2)⟩
      rw [hguard.1 a ha] at hboth
      cases hboth.1
  next => exact h

/-! ### Answers -/

theorem answerOk_answerOf (h : s.Stored) (hgrounded : s.Grounded r) :
    AnswerOk s.rows r (r.answerOf s.rows) := by
  have horder := h.order r.conversation
  unfold AnswerOk HistoryRequest.answerOf
  cases hkind : r.kind with
  | latest => exact ⟨fun x hx => mem_of_mem_latestPage hx, trivial⟩
  | reconcile n => exact ⟨fun x hx => mem_of_mem_latestPage hx, trivial⟩
  | older before from_ =>
      exact ⟨fun x hx => (mem_of_mem_olderPage hx).1, fun x hx => (mem_of_mem_olderPage hx).2,
        fun m hm hlt hnot => olderPage_spec horder hm hlt hnot⟩
  | newer after =>
      exact ⟨fun x hx => (mem_of_mem_newerPage hx).1, fun x hx => (mem_of_mem_newerPage hx).2,
        fun m hm hlt hnot => newerPage_spec horder hm hlt hnot⟩
  | around messageId =>
      simp only [Grounded, hkind] at hgrounded
      obtain ⟨hmem, hrest⟩ := aroundPage_spec horder hgrounded
      exact ⟨hmem, fun m hm hnot => (hrest m hm hnot).imp_right And.right⟩

/-- A page that is to be merged is a page of the newest messages. -/
theorem answerOf_accepted (haccepts : s.accepts r = true) (rows : List Message) :
    (r.answerOf rows).messages = latestPage rows r.conversation := by
  unfold accepts at haccepts
  unfold HistoryRequest.answerOf
  cases hkind : r.kind with
  | latest => rfl
  | reconcile n => rfl
  | older before from_ => simp [hkind] at haccepts
  | newer after => simp [hkind] at haccepts
  | around messageId => simp [hkind] at haccepts

/-- The pages to be merged after an answer. -/
theorem page_answered {a : HistoryAnswer} {p : List Message}
    (hrequests : s.requests = pre ++ r :: post) (hnone : r.answer = none) :
    Page { s with requests := pre ++ { r with answer := some a } :: post } p ↔
      s.Page p ∨ s.accepts r = true ∧ p = a.messages := by
  unfold Page
  simp only [hrequests, List.mem_append, List.mem_cons]
  constructor
  · rintro ⟨q, hq | rfl | hq, hacc, b, hb, rfl⟩
    · exact .inl ⟨q, .inl hq, hacc, b, hb, rfl⟩
    · exact .inr ⟨hacc, by rw [Option.some.inj hb]⟩
    · exact .inl ⟨q, .inr (.inr hq), hacc, b, hb, rfl⟩
  · rintro (⟨q, hq | rfl | hq, hacc, b, hb, rfl⟩ | ⟨hacc, rfl⟩)
    · exact ⟨q, .inl hq, hacc, b, hb, rfl⟩
    · rw [hnone] at hb
      cases hb
    · exact ⟨q, .inr (.inr hq), hacc, b, hb, rfl⟩
    · exact ⟨_, .inr (.inl rfl), hacc, a, rfl, rfl⟩

/-- A page of the newest messages is answered: what it does not have is before it. -/
theorem Tracked.placed_answered (h : s.Tracked) (hrequests : s.requests = pre ++ r :: post)
    (hnone : r.answer = none) (haccepts : s.accepts r = true)
    (hok : s.connected = true → ∀ m ∈ conversationRows s.rows r.conversation, m ∉ s.events →
      ¬ s.Loaded m →
        ((∀ x, s.Loaded x → m.cursor < x.cursor) ∧ ∀ p, s.Page p → messagePageSize ≤ p.length) ∨
          m ∈ latestPage s.rows r.conversation) :
    Placed { s with
      requests := pre ++ { r with answer := some (r.answerOf s.rows) } :: post } := by
  have hpages {p : List Message} := page_answered (s := s) (a := r.answerOf s.rows) (p := p)
    hrequests hnone
  rw [answerOf_accepted haccepts] at hpages
  have hr : r ∈ s.requests := by simp [hrequests]
  have hconversation := accepts_conversation haccepts
  have hlast := (h.at_end hr haccepts).2
  intro k hk x hx
  obtain rfl : r.conversation = k := Option.some.inj (hconversation.symm.trans hk)
  by_cases hloaded : s.Loaded x
  · exact .inl (hloaded.imp_right fun ⟨p, hp, hmem⟩ => ⟨p, hpages.mpr (.inl hp), hmem⟩)
  · by_cases hpage : x ∈ latestPage s.rows r.conversation
    · exact .inl (.inr ⟨_, hpages.mpr (.inr ⟨haccepts, rfl⟩), hpage⟩)
    · obtain ⟨hlength, hbefore⟩ := latestPage_spec (h.stored.order _) hx hpage
      by_cases hoff : s.connected = true
      · by_cases hevent : x ∈ s.events
        · exact .inr (.inr (.inr ⟨hlast, .inr (.inl hevent)⟩))
        · obtain ⟨hall, hfull⟩ := (hok hoff x hx hevent hloaded).resolve_right hpage
          refine .inr (.inl ⟨fun y hy => ?_, fun hno => ?_, fun p hp => ?_⟩)
          · rcases hy with hy | ⟨p, hp, hy⟩
            · exact hall y (.inl hy)
            · rcases hpages.mp hp with hp | ⟨-, rfl⟩
              · exact hall y (.inr ⟨p, hp, hy⟩)
              · exact hbefore y hy
          · exact absurd (hpages.mpr (.inr ⟨haccepts, rfl⟩)) (hno _)
          · rcases hpages.mp hp with hp | ⟨-, rfl⟩
            · exact hfull p hp
            · exact hlength.ge
      · exact .inr (.inr (.inr ⟨hlast, .inl (Bool.eq_false_iff.mpr hoff)⟩))

theorem Tracked.answer (h : s.Tracked) (hok : s.InStep (.answer i)) :
    (s.apply (.answer i)).Tracked := by
  simp only [apply]
  split
  next => exact h
  next r hget =>
    split
    next => exact h
    next hnone =>
      have hnone : r.answer = none := by simpa using hnone
      obtain ⟨pre, post, hrequests, -, hset⟩ := split_at hget
      have hr : r ∈ s.requests := by simp [hrequests]
      have hmine := h.requests r hr
      rw [hset]
      refine h.withRequests (fun q hq => ?_) ?_ ?_ (fun P hP q hq => ?_) (fun hacc q hq => ?_)
        fun _ hplaced => ?_
      · rcases List.mem_append.mp hq with hq | hq
        · exact h.requests q (by simp [hrequests, hq])
        · rcases List.mem_cons.mp hq with rfl | hq
          · refine ⟨hmine.owner, hmine.outlives, hmine.grounded, fun a ha => ?_⟩
            obtain rfl := Option.some.inj ha
            exact answerOk_answerOf h.stored hmine.grounded
          · exact h.requests q (by simp [hrequests, hq])
      · have hapart := h.apart
        rw [hrequests, List.pairwise_append, List.pairwise_cons] at hapart
        rw [List.pairwise_append, List.pairwise_cons]
        refine ⟨hapart.1, hapart.2.1, fun a ha b hb => ?_⟩
        rcases List.mem_cons.mp hb with rfl | hb
        · exact hapart.2.2 a ha r List.mem_cons_self
        · exact hapart.2.2 a ha b (List.mem_cons_of_mem _ hb)
      · simp [Jumping, hrequests, or_and_right, exists_or]
      · rcases List.mem_append.mp hq with hq | hq
        · exact hP q (by simp [hrequests, hq])
        · rcases List.mem_cons.mp hq with rfl | hq
          · exact hP r hr
          · exact hP q (by simp [hrequests, hq])
      · rcases List.mem_append.mp hq with hq | hq
        · exact hacc q (by simp [hrequests, hq])
        · rcases List.mem_cons.mp hq with rfl | hq
          · exact hacc r hr
          · exact hacc q (by simp [hrequests, hq])
      · by_cases haccepts : s.accepts r = true
        · exact h.placed_answered hrequests hnone haccepts fun hon =>
            hok r (by simp [hget]) haccepts hon
        · refine hplaced.withRequests (fun p => ?_) ?_
          · rw [page_answered hrequests hnone]
            simp [haccepts]
          · rintro ⟨q, hq, hacc, hopen⟩
            rw [hrequests] at hq
            rcases List.mem_append.mp hq with hq | hq
            · exact ⟨q, List.mem_append_left _ hq, hacc, hopen⟩
            · rcases List.mem_cons.mp hq with rfl | hq
              · exact absurd hacc haccepts
              · exact ⟨q, List.mem_append_right _ (List.mem_cons_of_mem _ hq), hacc, hopen⟩

end Requests

end HistoryState

end RemoteTerm
