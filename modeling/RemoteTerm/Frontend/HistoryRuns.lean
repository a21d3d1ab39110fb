import RemoteTerm.Frontend.HistoryRequests

/-!
# The loaded history over whole runs

In every run whose steps meet the condition, the loaded messages of the open
conversation are a window without a gap whenever nothing is under way.
-/

namespace RemoteTerm

open Library

namespace HistoryState

variable {s : HistoryState} {id : Text} {m : Message} {r : HistoryRequest}

/-! ### Handling an answer -/

section Answers

variable {pre post : List HistoryRequest} {i : Nat} {a : HistoryAnswer}

theorem mem_removed (hrequests : s.requests = pre ++ r :: post) {q : HistoryRequest}
    (hq : q ∈ pre ++ post) : q ∈ s.requests := by
  rw [hrequests]
  rcases List.mem_append.mp hq with hq | hq
  · exact List.mem_append_left _ hq
  · exact List.mem_append_right _ (List.mem_cons_of_mem _ hq)

theorem mem_removed_or (hrequests : s.requests = pre ++ r :: post) {q : HistoryRequest}
    (hq : q ∈ s.requests) : q = r ∨ q ∈ pre ++ post := by
  rw [hrequests] at hq
  rcases List.mem_append.mp hq with hq | hq
  · exact .inr (List.mem_append_left _ hq)
  · exact (List.mem_cons.mp hq).imp_right fun hq => List.mem_append_right _ hq

theorem apart_removed (h : s.requests.Pairwise Apart) (hrequests : s.requests = pre ++ r :: post) :
    (pre ++ post).Pairwise Apart := by
  rw [hrequests] at h
  exact h.sublist ((List.sublist_cons_self r post).append_left pre)

/-- No other request is for newer pages, or for a window, when this one is. -/
theorem apart_of_removed (h : s.requests.Pairwise Apart)
    (hrequests : s.requests = pre ++ r :: post) {q : HistoryRequest} (hq : q ∈ pre ++ post) :
    Apart r q := by
  rw [hrequests, List.pairwise_append, List.pairwise_cons] at h
  rcases List.mem_append.mp hq with hq | hq
  · obtain ⟨hnewer, haround⟩ := h.2.2 q hq r List.mem_cons_self
    exact ⟨fun hboth => hnewer hboth.symm, fun hboth => haround hboth.symm⟩
  · exact h.2.1.1 q hq

theorem page_removed (hrequests : s.requests = pre ++ r :: post) (haccepts : s.accepts r = false)
    (p : List Message) : Page { s with requests := pre ++ post } p ↔ s.Page p := by
  constructor
  · rintro ⟨q, hq, hrest⟩
    exact ⟨q, mem_removed hrequests hq, hrest⟩
  · rintro ⟨q, hq, hacc, hrest⟩
    rcases mem_removed_or hrequests hq with rfl | hq
    · exact absurd (haccepts.symm.trans hacc) (by simp)
    · exact ⟨q, hq, hacc, hrest⟩

theorem unanswered_removed (hrequests : s.requests = pre ++ r :: post) (ha : r.answer = some a)
    (h : s.Unanswered) : Unanswered { s with requests := pre ++ post } := by
  obtain ⟨q, hq, hacc, hopen⟩ := h
  rcases mem_removed_or hrequests hq with rfl | hq
  · rw [ha] at hopen
    cases hopen
  · exact ⟨q, hq, hacc, hopen⟩

/-- An answer that is not for the current conversation or request. -/
theorem Tracked.drop (h : s.Tracked) (hrequests : s.requests = pre ++ r :: post)
    (ha : r.answer = some a) (haround : r.kind.isAround = false)
    (haccepts : s.accepts r = false) : Tracked { s with requests := pre ++ post } := by
  refine h.withRequests (fun q hq => h.requests q (mem_removed hrequests hq))
    (apart_removed h.apart hrequests) ⟨?_, ?_⟩
    (fun P hP q hq => hP q (mem_removed hrequests hq))
    (fun hacc q hq => hacc q (mem_removed hrequests hq)) fun _ hplaced =>
      hplaced.withRequests (page_removed hrequests haccepts) (unanswered_removed hrequests ha)
  · rintro ⟨q, hq, hq'⟩
    exact ⟨q, mem_removed hrequests hq, hq'⟩
  · rintro ⟨q, hq, hq'⟩
    rcases mem_removed_or hrequests hq with rfl | hq
    · rw [haround] at hq'
      cases hq'
    · exact ⟨q, hq, hq'⟩

/-- A page of the newest messages is merged. -/
theorem Tracked.merge (h : s.Tracked) (hrequests : s.requests = pre ++ r :: post)
    (ha : r.answer = some a) (haccepts : s.accepts r = true) {messages : List Message}
    {seen : List Text} (hmessages : ∀ x, x ∈ messages ↔ x ∈ s.messages ∨ x ∈ a.messages) :
    Tracked { s with
      requests := pre ++ post
      messages := messages
      seenMessageContent := seen
      hasOlderMessages := decide (messagePageSize ≤ a.messages.length) } := by
  have hs := h.stored
  have hr : r ∈ s.requests := by simp [hrequests]
  have hactive := accepts_conversation haccepts
  have hpage : s.Page a.messages := ⟨r, hr, haccepts, a, ha, rfl⟩
  obtain ⟨hjump, hlast⟩ := h.at_end hr haccepts
  have hnewer : ∀ {P : Prop}, s.hasNewerMessages = true → P := fun hnewer =>
    absurd (hlast.symm.trans hnewer) (by simp)
  have hpages {p : List Message} : s.Page p → p = a.messages ∨
      Page { s with requests := pre ++ post } p := by
    rintro ⟨q, hq, hacc, b, hb, rfl⟩
    rcases mem_removed_or hrequests hq with rfl | hq
    · rw [ha] at hb
      exact .inl (by rw [Option.some.inj hb])
    · exact .inr ⟨q, hq, hacc, b, hb, rfl⟩
  have hpages' {p : List Message} : Page { s with requests := pre ++ post } p → s.Page p := by
    rintro ⟨q, hq, hrest⟩
    exact ⟨q, mem_removed hrequests hq, hrest⟩
  have hadded := hs.messages_added hactive ((h.requests r hr).answered a ha).1 hmessages
  refine ⟨⟨hs.ids, hs.order, hs.contents, hs.events, hs.offline, hs.cache, hadded⟩,
    fun q hq => ?_, apart_removed h.apart hrequests, fun hj => absurd ?_ hjump,
    fun _ _ hn => hnewer hn, fun _ k hk x hx => ?_⟩
  · have hok := h.requests q (mem_removed hrequests hq)
    exact hok.congr rfl rfl (grounded_grow hok.grounded rfl
      (fun x hx => (hmessages x).mpr (.inl hx)) fun _ _ hn => hnewer hn)
  · obtain ⟨q, hq, hq'⟩ := hj
    exact ⟨q, mem_removed hrequests hq, hq'⟩
  · have hloaded (y : Message) : Loaded { s with
        requests := pre ++ post
        messages := messages
        seenMessageContent := seen
        hasOlderMessages := decide (messagePageSize ≤ a.messages.length) } y ↔ s.Loaded y := by
      constructor
      · rintro (hy | ⟨p, hp, hy⟩)
        · rcases (hmessages y).mp hy with hy | hy
          · exact .inl hy
          · exact .inr ⟨_, hpage, hy⟩
        · exact .inr ⟨p, hpages' hp, hy⟩
      · rintro (hy | ⟨p, hp, hy⟩)
        · exact .inl ((hmessages y).mpr (.inl hy))
        · rcases hpages hp with rfl | hp
          · exact .inl ((hmessages y).mpr (.inr hy))
          · exact .inr ⟨p, hp, hy⟩
    rcases h.placed hjump k hk x hx with hx | hbefore | ⟨hn, -⟩ | ⟨-, hcome⟩
    · exact .inl ((hloaded x).mpr hx)
    · exact .inr (.inl ⟨fun y hy => hbefore.cursor y ((hloaded y).mp hy),
        fun _ => decide_eq_true (hbefore.pages _ hpage), fun p hp => hbefore.pages p (hpages' hp)⟩)
    · exact hnewer hn
    · exact .inr (.inr (.inr ⟨hlast,
        hcome.imp_right (Or.imp_right (unanswered_removed hrequests ha))⟩))

/-- A page before the window is added. -/
theorem Tracked.older (h : s.Tracked) (hrequests : s.requests = pre ++ r :: post)
    (ha : r.answer = some a) {before : Cursor} {fetchedFrom : List Message}
    (hkind : r.kind = .older before fetchedFrom) :
    Tracked (finishOlder { s with requests := pre ++ post } fetchedFrom a.messages) := by
  have hs := h.stored
  have hr : r ∈ s.requests := by simp [hrequests]
  have hmine := h.requests r hr
  have hactive := hmine.active fun n hn => by rw [hkind] at hn; cases hn
  have haccepts : s.accepts r = false := by simp [accepts, hkind]
  have hjump : ¬ s.Jumping := h.not_jumping hr (.inl (by rw [hkind]; rfl))
  obtain ⟨hknown, hanswer⟩ := hmine.answered a ha
  have hgrounded := hmine.grounded
  simp only [Grounded, hkind] at hanswer hgrounded
  obtain ⟨w, hw, rfl⟩ := hgrounded
  obtain ⟨hlow, hcovered⟩ := hanswer
  have hmessages (x : Message) : x ∈ appendUniqueMessages s.messages a.messages ↔
      x ∈ s.messages ∨ x ∈ a.messages :=
    (hs.identified r.conversation).mem_appendUnique (fun y hy => hs.mem_rows hactive hy) hknown
  have hpages := page_removed hrequests haccepts
  unfold finishOlder
  dsimp only
  refine ⟨⟨hs.ids, hs.order, hs.contents, hs.events, hs.offline, hs.cache,
      hs.messages_added hactive hknown hmessages⟩,
    fun q hq => ?_, apart_removed h.apart hrequests, fun hj => absurd ?_ hjump,
    fun k hk hnewer _ => ⟨fun q hq => ?_, fun key hkey => ?_⟩, fun _ k hk x hx => ?_⟩
  · have hok := h.requests q (mem_removed hrequests hq)
    refine hok.congr rfl rfl (grounded_grow hok.grounded rfl
      (fun x hx => (hmessages x).mpr (.inl hx)) fun after _ hnewer hmax => ⟨hnewer, fun x hx => ?_⟩)
    rcases (hmessages x).mp hx with hx | hx
    · exact hmax x hx
    · exact (hlow x hx).le.trans (hmax w hw)
  · obtain ⟨q, hq, hq'⟩ := hj
    exact ⟨q, mem_removed hrequests hq, hq'⟩
  · exact (h.browsing k hk hnewer hjump).1 q (mem_removed hrequests hq)
  · dsimp only at hkey
    split at hkey
    next =>
      obtain ⟨v, hv, rfl⟩ := (h.browsing k hk hnewer hjump).2 key hkey
      exact ⟨v, (hmessages v).mpr (.inl hv), rfl⟩
    next =>
      obtain ⟨v, hv, rfl⟩ := List.mem_map.mp hkey
      exact ⟨v, hv, rfl⟩
  · obtain rfl : r.conversation = k := Option.some.inj (hactive.symm.trans hk)
    have hcases {y : Message} (hy : y ∈ appendUniqueMessages s.messages a.messages ∨
        ∃ p, Page { s with requests := pre ++ post } p ∧ y ∈ p) : s.Loaded y ∨ y ∈ a.messages := by
      rcases hy with hy | ⟨p, hp, hy⟩
      · exact ((hmessages y).mp hy).imp_left .inl
      · exact .inl (.inr ⟨p, (hpages p).mp hp, hy⟩)
    rcases h.placed hjump _ hk x hx with hx | hbefore | ⟨hnewer, hall⟩ | ⟨hlast, hcome⟩
    · rcases hx with hx | ⟨p, hp, hx⟩
      · exact .inl (.inl ((hmessages x).mpr (.inl hx)))
      · exact .inl (.inr ⟨p, (hpages p).mpr hp, hx⟩)
    · by_cases hpage : x ∈ a.messages
      · exact .inl (.inl ((hmessages x).mpr (.inr hpage)))
      · obtain ⟨hlength, hearlier⟩ := hcovered x hx (hbefore.cursor w (.inl hw)) hpage
        refine .inr (.inl ⟨fun y hy => ?_, fun _ => decide_eq_true hlength.ge,
          fun p hp => hbefore.pages p ((hpages p).mp hp)⟩)
        exact (hcases hy).elim (hbefore.cursor y) (hearlier y)
    · refine .inr (.inr (.inl ⟨hnewer, fun y hy => ?_⟩))
      exact (hcases hy).elim (hall y) fun hy => (hlow y hy).trans (hall w (.inl hw))
    · exact .inr (.inr (.inr ⟨hlast,
        hcome.imp_right (Or.imp_right (unanswered_removed hrequests ha))⟩))

/-- The window of a jump is shown. -/
theorem Tracked.around (h : s.Tracked) (hrequests : s.requests = pre ++ r :: post)
    (ha : r.answer = some a) {messageId : Nat} (hkind : r.kind = .around messageId)
    (hok : s.connected = true → a.hasNewer = false →
      ∀ m ∈ conversationRows s.rows r.conversation, (∀ x ∈ a.messages, x.cursor < m.cursor) →
        m ∈ s.events) :
    Tracked (finishAround { s with requests := pre ++ post } a) := by
  have hs := h.stored
  have hr : r ∈ s.requests := by simp [hrequests]
  have hmine := h.requests r hr
  have hactive := hmine.active fun n hn => by rw [hkind] at hn; cases hn
  obtain ⟨hnone, -⟩ := h.jumping ⟨r, hr, by rw [hkind]; rfl⟩
  obtain ⟨hknown, hanswer⟩ := hmine.answered a ha
  simp only [hkind] at hanswer
  have hstill : ¬ Jumping (finishAround { s with requests := pre ++ post } a) := by
    rintro ⟨q, hq, hq'⟩
    refine (apart_of_removed h.apart hrequests hq).2 ⟨?_, hq'⟩
    rw [hkind]
    rfl
  have haccepts : ∀ q ∈ pre ++ post,
      accepts (finishAround { s with requests := pre ++ post } a) q = false := fun q hq =>
    (hnone q (mem_removed hrequests hq)).1
  refine ⟨⟨hs.ids, hs.order, hs.contents, hs.events, hs.offline, hs.cache, fun x hx => ?_⟩,
    fun q hq => ?_, apart_removed h.apart hrequests, fun hj => absurd hj hstill,
    fun k hk hnewer _ => ⟨haccepts, fun key hkey => ?_⟩, fun _ k hk x hx => ?_⟩
  · obtain ⟨hrows, hkey⟩ := mem_conversationRows.mp (hknown x hx)
    exact ⟨hrows, hkey ▸ hactive⟩
  · have hok := h.requests q (mem_removed hrequests hq)
    obtain ⟨-, holder, hnewer⟩ := hnone q (mem_removed hrequests hq)
    exact hok.congr rfl rfl (grounded_of_end hok.grounded (by rfl) holder hnewer)
  · obtain ⟨v, hv, rfl⟩ := List.mem_map.mp hkey
    exact ⟨v, hv, rfl⟩
  · obtain rfl : r.conversation = k := Option.some.inj (hactive.symm.trans hk)
    have hloaded {y : Message}
        (hy : Loaded (finishAround { s with requests := pre ++ post } a) y) : y ∈ a.messages :=
      (loaded_iff_of_none haccepts).mp hy
    by_cases hpage : x ∈ a.messages
    · exact .inl (.inl hpage)
    · rcases hanswer x hx hpage with ⟨holder, hall⟩ | hall
      · exact .inr (.inl ⟨fun y hy => hall y (hloaded hy), fun _ => holder,
          fun p hp => absurd hp (no_page_of_none haccepts p)⟩)
      · by_cases hnewer : a.hasNewer = true
        · exact .inr (.inr (.inl ⟨hnewer, fun y hy => hall y (hloaded hy)⟩))
        · have hlast : a.hasNewer = false := Bool.eq_false_iff.mpr hnewer
          by_cases hoff : s.connected = true
          · exact .inr (.inr (.inr ⟨hlast, .inr (.inl (hok hoff hlast x hx hall))⟩))
          · exact .inr (.inr (.inr ⟨hlast, .inl (Bool.eq_false_iff.mpr hoff)⟩))

/-- What counts as seen is in the window already. -/
theorem Stored.mem_append_unseen (h : s.Stored) (hid : s.activeConversation = some id)
    {page : List Message} (hpage : ∀ x ∈ page, x ∈ conversationRows s.rows id)
    (hseen : ∀ key ∈ s.seenMessageContent, ∃ w ∈ s.messages, w.contentKey = key) (x : Message) :
    x ∈ s.messages ++ (page.filter fun m => m.contentKey ∉ s.seenMessageContent) ↔
      x ∈ s.messages ∨ x ∈ page := by
  rw [List.mem_append, List.mem_filter, decide_eq_true_eq]
  refine ⟨Or.imp_right And.left, fun hx => hx.elim .inl fun hx => ?_⟩
  by_cases hkey : x.contentKey ∈ s.seenMessageContent
  · obtain ⟨v, hv, heq⟩ := hseen _ hkey
    rw [← (h.identified id).content v (h.mem_rows hid hv) x (hpage x hx) heq]
    exact .inl hv
  · exact .inr ⟨hx, hkey⟩

/-- A page behind the window is added. -/
theorem Tracked.newer (h : s.Tracked) (hrequests : s.requests = pre ++ r :: post)
    (ha : r.answer = some a) {after : Cursor} (hkind : r.kind = .newer after)
    (hok : s.connected = true → a.messages.length < messagePageSize →
      s.pendingReconnectReconcile = false →
        ∀ m ∈ conversationRows s.rows r.conversation, after < m.cursor →
          m ∉ a.messages → m ∈ s.events) :
    Tracked (finishNewer { s with requests := pre ++ post } r.conversation a.messages) := by
  have hs := h.stored
  have hr : r ∈ s.requests := by simp [hrequests]
  have hmine := h.requests r hr
  have hactive := hmine.active fun n hn => by rw [hkind] at hn; cases hn
  have hjump : ¬ s.Jumping := h.not_jumping hr (.inr (by rw [hkind]; rfl))
  obtain ⟨hknown, hanswer⟩ := hmine.answered a ha
  have hgrounded := hmine.grounded
  simp only [Grounded, hkind] at hanswer hgrounded
  obtain ⟨hnewer, ⟨w, hw, rfl⟩, hmax⟩ := hgrounded
  obtain ⟨hhigh, hcovered⟩ := hanswer
  obtain ⟨hnone, hseen⟩ := h.browsing _ hactive hnewer hjump
  have hmessages := hs.mem_append_unseen hactive hknown hseen
  have hstored {seen : List Text} {hasNewer pending : Bool} : Stored { s with
      requests := pre ++ post
      messages := s.messages ++ (a.messages.filter fun m => m.contentKey ∉ s.seenMessageContent)
      seenMessageContent := seen
      hasNewerMessages := hasNewer
      pendingReconnectReconcile := pending } :=
    ⟨hs.ids, hs.order, hs.contents, hs.events, hs.offline, hs.cache,
      hs.messages_added hactive hknown hmessages⟩
  have hpending {seen : List Text} {hasNewer pending : Bool} : ∀ q ∈ pre ++ post, RequestOk { s with
      requests := pre ++ post
      messages := s.messages ++ (a.messages.filter fun m => m.contentKey ∉ s.seenMessageContent)
      seenMessageContent := seen
      hasNewerMessages := hasNewer
      pendingReconnectReconcile := pending } q := by
    intro q hq
    have hq' := h.requests q (mem_removed hrequests hq)
    refine hq'.congr rfl rfl (grounded_grow hq'.grounded rfl
      (fun x hx => (hmessages x).mpr (.inl hx)) fun after' hafter _ _ => ?_)
    refine absurd ⟨?_, ?_⟩ (apart_of_removed h.apart hrequests hq).1
    · rw [hkind]
      rfl
    · rw [hafter]
      rfl
  have hapart := apart_removed h.apart hrequests
  have hstill : ¬ Jumping { s with requests := pre ++ post } := by
    rintro ⟨q, hq, hq'⟩
    exact hjump ⟨q, mem_removed hrequests hq, hq'⟩
  have haccepts : ∀ q ∈ pre ++ post, s.accepts q = false := fun q hq =>
    hnone q (mem_removed hrequests hq)
  unfold finishNewer
  dsimp only
  split
  next hend =>
    simp only [Bool.and_eq_true, Bool.not_eq_true', decide_eq_false_iff_not] at hend
    exact Tracked.reconcileFromBackend hstored hpending hapart hactive
      (decide_eq_false hend.1) hstill false
  next hend =>
    refine ⟨hstored, hpending, hapart, fun hj => absurd hj hstill,
      fun k hk hn _ => ⟨haccepts, fun key hkey => ?_⟩, fun _ k hk x hx => ?_⟩
    · rcases List.mem_append.mp hkey with hkey | hkey
      · obtain ⟨v, hv, rfl⟩ := List.mem_map.mp hkey
        exact ⟨v, List.mem_append_right _ hv, rfl⟩
      · obtain ⟨v, hv, rfl⟩ := hseen _ hkey
        exact ⟨v, List.mem_append_left _ hv, rfl⟩
    · obtain rfl : r.conversation = k := Option.some.inj (hactive.symm.trans hk)
      have hcases {y : Message} (hy : y ∈ s.messages ++
          (a.messages.filter fun m => m.contentKey ∉ s.seenMessageContent) ∨
          ∃ p, Page { s with requests := pre ++ post } p ∧ y ∈ p) :
          y ∈ s.messages ∨ y ∈ a.messages := by
        rcases hy with hy | ⟨p, ⟨q, hq, hacc, -⟩, -⟩
        · exact (hmessages y).mp hy
        · exact absurd ((haccepts q hq).symm.trans hacc) (by simp)
      rcases h.placed hjump _ hk x hx with hx' | hbefore | ⟨-, hall⟩ | ⟨hlast, -⟩
      · exact .inl (.inl ((hmessages x).mpr (.inl ((loaded_iff_of_none hnone).mp hx'))))
      · refine .inr (.inl ⟨fun y hy => ?_, fun _ => hbefore.flag (no_page_of_none hnone),
          fun p hp => absurd hp (no_page_of_none haccepts p)⟩)
        exact (hcases hy).elim (fun hy => hbefore.cursor y (.inl hy)) fun hy =>
          (hbefore.cursor w (.inl hw)).trans (hhigh y hy)
      · by_cases hpage : x ∈ a.messages
        · exact .inl (.inl ((hmessages x).mpr (.inr hpage)))
        · have hafter : w.cursor < x.cursor := hall w (.inl hw)
          by_cases hmore : messagePageSize ≤ a.messages.length
          · refine .inr (.inr (.inl ⟨decide_eq_true hmore, fun y hy => ?_⟩))
            exact (hcases hy).elim (fun hy => hall y (.inl hy)) (hcovered x hx hafter hpage y)
          · refine .inr (.inr (.inr ⟨decide_eq_false hmore, ?_⟩))
            by_cases hoff : s.connected = true
            · refine .inr (.inl (hok hoff (not_le.mp hmore) ?_ x hx hafter hpage))
              simpa [hmore] using hend
            · exact .inl (Bool.eq_false_iff.mpr hoff)
      · exact absurd (hlast.symm.trans hnewer) (by simp)

theorem Tracked.receive (h : s.Tracked) (hok : s.InStep (.receive i)) :
    (s.apply (.receive i)).Tracked := by
  simp only [apply]
  split
  next => exact h
  next r hget =>
    split
    next => exact h
    next a ha =>
      obtain ⟨pre, post, hrequests, herase, -⟩ := split_at hget
      have hr : r ∈ s.requests := by simp [hrequests]
      have hstep := hok r (by simp [hget]) a (by simp [ha])
      rw [herase]
      unfold handle
      split
      next hother =>
        have hother : s.activeConversation ≠ some r.conversation := hother
        refine h.drop hrequests ha ?_ (by simp [accepts, hother])
        have hkind := (h.requests r hr).outlives (by
          rw [Bool.eq_false_iff]
          exact fun hab => hother ((h.requests r hr).owner hab))
        obtain ⟨n, hn⟩ := hkind
        rw [hn]
        rfl
      next hactive =>
        have hactive : s.activeConversation = some r.conversation := not_not.mp hactive
        have hreconcile (x : Message) :
            x ∈ (reconcileConversationMessages s.messages a.messages).getD s.messages ↔
              x ∈ s.messages ∨ x ∈ a.messages :=
          (h.stored.identified r.conversation).mem_reconcile
            (fun y hy => h.stored.mem_rows hactive hy) ((h.requests r hr).answered a ha).1
        cases hkind : r.kind with
        | latest =>
            exact h.merge hrequests ha (by simp [accepts, hactive, hkind]) hreconcile
        | reconcile n =>
            dsimp only
            split
            next hstale =>
              have hstale : n ≠ s.latestReconcileRequestId := Ne.symm hstale
              refine h.drop hrequests ha (by rw [hkind]; rfl) ?_
              simp [accepts, hkind, hstale]
            next hcurrent =>
              have hcurrent : s.latestReconcileRequestId = n := not_not.mp hcurrent
              have haccepts : s.accepts r = true := by simp [accepts, hactive, hkind, hcurrent]
              unfold finishReconcile
              dsimp only
              split
              next hsame =>
                refine h.merge hrequests ha haccepts fun x => ?_
                rw [← hreconcile, hsame, Option.getD_none]
              next merged hmerged =>
                refine h.merge hrequests ha haccepts fun x => ?_
                rw [← hreconcile, hmerged, Option.getD_some]
        | older before fetchedFrom => exact h.older hrequests ha hkind
        | newer after =>
            simp only [hkind] at hstep
            exact h.newer hrequests ha hkind hstep
        | around messageId =>
            simp only [hkind] at hstep
            exact h.around hrequests ha hkind hstep

end Answers

/-! ### Runs -/

/-- Nothing is loaded and nothing is stored. -/
theorem tracked_start : Tracked {} where
  stored :=
    { ids := List.nodup_nil
      order := fun _ => List.Pairwise.nil
      contents := fun _ => List.Pairwise.nil
      events := List.nil_suffix
      offline := fun _ => rfl
      cache := fun id entry hentry => by cases hentry
      messages := fun m hm => by cases hm }
  requests := fun r hr => by cases hr
  apart := List.Pairwise.nil
  jumping := fun ⟨r, hr, _⟩ => by cases hr
  browsing := fun id hid => by cases hid
  placed := fun _ id hid => by cases hid

theorem Tracked.step (action : HistoryAction) (hok : s.InStep action) (h : s.Tracked) :
    (s.apply action).Tracked := by
  cases action with
  | store m => exact h.store hok
  | deliver => exact h.deliver hok
  | disconnect => exact h.disconnect
  | reconnect => exact h.reconnect hok
  | navigate conversation target => exact h.navigate hok
  | loadOlder => exact h.loadOlder hok
  | loadNewer => exact h.loadNewer
  | answer i => exact h.answer hok
  | receive i => exact h.receive hok

/-- Actions lead from one state to another, each under a condition on the state before it. -/
abbrev Run (ok : HistoryState → HistoryAction → Prop) : HistoryState → HistoryState → Prop :=
  Machine HistoryState.apply ok

/-- **Nothing is missing from the window.** In every run whose steps meet the condition, the
loaded messages have no gap whenever nothing is under way. -/
theorem loadedHistory_gapless (run : Run InStep {} s) (hid : s.activeConversation = some id)
    (hquiet : s.Quiet) : s.Gapless id :=
  (run.invariant (fun _ action => Tracked.step action) tracked_start).gapless hid hquiet

section Example

/-- The key of a channel. -/
def postedKey : Text := List.replicate 32 'A'

/-- A message of the channel. -/
def channelPost (n : Nat) : Message where
  toMessageRow := NewMessage.toRow
    { msgType := .chan
      text := "hello".toList
      receivedAt := n
      conversationKey := postedKey
      senderTimestamp := some n } n
  packetId := none

/-- A message came, and its conversation was opened from the cache. -/
def reopened : HistoryState :=
  ((apply {} (.store (channelPost 1))).apply .deliver).apply (.navigate (some postedKey) none)

/-- The cached conversation is reconciled. -/
theorem loadedHistory_gapless_channelPost :
    ∃ s, Run InStep {} s ∧ s.messages = [channelPost 1] ∧ s.Gapless postedKey := by
  have hstored : Run InStep {} _ := Machine.single (.store (channelPost 1)) fun r hr => by cases hr
  have hcached := hstored.tail .deliver fun m _ hactive => by cases hactive
  have hopened := hcached.tail (.navigate (some postedKey) none)
    ⟨fun heq => (by cases heq), fun _ _ messageId hmessage => (by cases hmessage)⟩
  have hanswered := hopened.tail (.answer 0) (by
    intro r hr _ _ m hm _ _
    have hall : ∀ r ∈ reopened.requests[0]?, ∀ m ∈ conversationRows reopened.rows r.conversation,
        m ∈ latestPage reopened.rows r.conversation := by decide +kernel
    exact .inr (hall r hr m hm))
  have hreceived := hanswered.tail (.receive 0) (by
    intro r hr a _ _
    have hall : ∀ r ∈ (reopened.apply (.answer 0)).requests[0]?,
        r.kind.isNewer = false ∧ r.kind.isAround = false := by decide +kernel
    obtain ⟨hnewer, haround⟩ := hall r hr
    cases hkind : r.kind with
    | latest => trivial
    | reconcile n => trivial
    | older before fetchedFrom => trivial
    | newer after => rw [hkind] at hnewer; cases hnewer
    | around messageId => rw [hkind] at haround; cases haround)
  have hrequests : ((reopened.apply (.answer 0)).apply (.receive 0)).requests.length = 0 := by
    decide +kernel
  exact ⟨_, hreceived, by decide +kernel, loadedHistory_gapless hreceived (by decide +kernel)
    ⟨List.eq_nil_of_length_eq_zero hrequests, by decide +kernel, by decide +kernel⟩⟩

/-- A message arrives while the window of a jump is on its way. -/
def jumpThenPost : List HistoryAction :=
  [.store (channelPost 1), .deliver, .navigate (some postedKey) (some 1), .answer 0,
    .store (channelPost 2), .deliver, .receive 0]

/-- The window replaces the message, and says that nothing is newer. -/
theorem jump_drops_channelPost :
    ∃ s, Run (fun _ _ => True) {} s ∧ s.Quiet ∧ s.activeConversation = some postedKey ∧
      s.messages = [channelPost 1] ∧ s.rows = [channelPost 1, channelPost 2] ∧
      s.hasNewerMessages = false ∧ ¬ s.Gapless postedKey := by
  have hmessages : (jumpThenPost.foldl HistoryState.apply {}).messages = [channelPost 1] := by
    decide +kernel
  have hrows : (jumpThenPost.foldl HistoryState.apply {}).rows =
      [channelPost 1, channelPost 2] := by decide +kernel
  have hnewer : (jumpThenPost.foldl HistoryState.apply {}).hasNewerMessages = false := by
    decide +kernel
  have hrequests : (jumpThenPost.foldl HistoryState.apply {}).requests.length = 0 := by
    decide +kernel
  refine ⟨jumpThenPost.foldl HistoryState.apply {}, Machine.foldl ..,
    ⟨List.eq_nil_of_length_eq_zero hrequests, by decide +kernel, by decide +kernel⟩,
    by decide +kernel, hmessages, hrows, hnewer, fun hgapless => ?_⟩
  have hflag := hgapless.2.2.2
  rw [hmessages, hrows, hnewer] at hflag
  refine absurd (hflag (List.cons_ne_nil _ _) ⟨channelPost 2, ?_, ?_⟩) Bool.false_ne_true
  · decide +kernel
  · decide +kernel

end Example

end HistoryState

end RemoteTerm
