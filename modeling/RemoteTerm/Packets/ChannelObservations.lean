import RemoteTerm.Packets.Processor

/-!
# Accounting for the observations of a channel message

One channel message is heard many times: as raw packets over several paths, as
an event of the radio library, and as echoes of our own send. Every observation
ends in the one row that holds the message's index entry.

## Implementation notes

The accounting is an invariant of the state after each observation; one lemma
says what an observation does to it when the message is new, one when it is
known, and the sequence follows by induction.
-/

namespace RemoteTerm

open Library MessageRepository

/-- A channel message, as its observations identify it. -/
structure ChannelMessage where
  conversationKey : Text
  text : Text
  timestamp : Int

namespace ChannelMessage

/-- The index entry of a channel message. -/
def key (m : ChannelMessage) : DedupKey := .channel m.conversationKey m.text m.timestamp

/-- The rows that store a channel message. -/
def storedIn (m : ChannelMessage) (t : MessageTable) : List MessageRow :=
  t.rows.filter fun r =>
    r.matchesContent .chan m.conversationKey m.text (some m.timestamp) none

end ChannelMessage

/-- One way to observe a channel message. -/
inductive ChannelObservation where
  | packet (r : Reception)
  | fallback (d : FallbackChannelMessage)

/-- The task that an observation starts. -/
def observe (env : Pipeline) : ChannelObservation → Task Unit
  | .packet r => processRawPacket env r
  | .fallback d => do
      let _ ← createFallbackChannelMessage d
      pure ()

/-- What an observation says about how the message was heard. -/
def ChannelObservation.heard : ChannelObservation → Observation
  | .packet r =>
      { path := pathHex (parsePacket r.rawBytes)
        receivedAt := r.receivedAt
        pathLen := pathLength (parsePacket r.rawBytes)
        rssi := r.rssi
        snr := r.snr }
  | .fallback d => d.observation

/-- An observation of a message: a packet that decrypts to it, or an event that carries it. -/
def IsObservationOf (env : Pipeline) (channels : List Channel) (m : ChannelMessage) :
    ChannelObservation → Prop
  | .packet r => ∃ channel decrypted,
      decryptingChannel env.crypto channels r.rawBytes = some (channel, decrypted) ∧
        upper channel.key = m.conversationKey ∧
        channelText decrypted.sender decrypted.message = m.text ∧
        (decrypted.timestamp : Int) = m.timestamp
  | .fallback d =>
      upper d.conversationKey = m.conversationKey ∧
        channelText d.senderName d.messageText = m.text ∧ d.senderTimestamp = m.timestamp

/-- Our own send of a message. -/
def IsSendOf (m : ChannelMessage) (d : OutgoingChannelMessage) : Prop :=
  d.conversationKey = m.conversationKey ∧ d.text = m.text ∧ d.senderTimestamp = m.timestamp

/-- Observations one after the other. -/
def observeAll (env : Pipeline) : List ChannelObservation → Task Unit
  | [] => pure ()
  | o :: rest => do
      observe env o
      observeAll env rest

/-- Our own send, when there is one, and then the observations. -/
def sendAndObserve (env : Pipeline) (own : Option OutgoingChannelMessage)
    (obs : List ChannelObservation) : Task Unit :=
  match own with
  | none => observeAll env obs
  | some d => do
      let _ ← createOutgoingChannelMessage d
      observeAll env obs

/-- The row of a message accounts for a list of paths and a number of echoes. -/
structure Accounted (m : ChannelMessage) (outgoing : Bool) (paths : List MessagePath)
    (echoes : Nat) (s : App) (row : MessageRow) : Prop where
  holds : s.messages.holder m.key = some row
  timestamp : row.senderTimestamp = some m.timestamp
  direction : row.outgoing = outgoing
  paths_eq : row.paths.getD [] = paths
  acked_eq : row.acked = if outgoing then echoes else 0

/-- The paths that a list of observations carried, in their order. -/
def heardPaths (obs : List ChannelObservation) : List MessagePath :=
  obs.filterMap fun o => o.heard.entry

theorem heardPaths_snoc (obs : List ChannelObservation) (o : ChannelObservation) :
    heardPaths (obs ++ [o]) = heardPaths obs ++ o.heard.entry.toList := by
  cases h : o.heard.entry <;> simp [heardPaths, h]

/-- The hash under which the packet of an observation is stored. -/
def packetHash (env : Pipeline) : ChannelObservation → Option Bytes
  | .packet r => some (RawPacketRepository.payloadHash env.crypto.sha256 r.rawBytes)
  | .fallback _ => none

/-- Every packet of a list of observations is linked to a row. -/
def PacketsLinked (env : Pipeline) (obs : List ChannelObservation) (s : App) (id : Nat) : Prop :=
  ∀ o ∈ obs, ∀ hash ∈ packetHash env o, ∃ p,
    s.rawPackets.holder hash = some p ∧ p.messageId = some id

section Row

variable {m : ChannelMessage} {t : MessageTable} {row : MessageRow}

theorem holder_key_spec (h : t.holder m.key = some row) :
    row ∈ t.rows ∧ row.type = .chan ∧ row.conversationKey = m.conversationKey ∧
      row.text = m.text ∧ row.senderTimestamp.getD 0 = m.timestamp := by
  obtain ⟨hmem, hk⟩ := t.holder_eq_some_iff.mp h
  rw [messageSchema_key, MessageRow.dedupKey, ChannelMessage.key] at hk
  cases ht : row.type with
  | chan => simp_all
  | priv =>
      simp only [ht] at hk
      split at hk <;> simp at hk

/-- A row with the content of a message holds its index entry. -/
theorem eq_of_matches (h : t.holder m.key = some row) {q : MessageRow} (hq : q ∈ t.rows)
    (hm : q.matchesContent .chan m.conversationKey m.text (some m.timestamp) none) : q = row := by
  obtain ⟨hmem, hk⟩ := t.holder_eq_some_iff.mp h
  obtain ⟨ht, hc, hx, hs, -⟩ := MessageRow.matchesContent_iff.mp hm
  refine t.eq_of_key hq hmem ?_ hk
  simp [MessageRow.dedupKey, ChannelMessage.key, ht, hc, hx, hs]

theorem matches_of_holder (h : t.holder m.key = some row)
    (hts : row.senderTimestamp = some m.timestamp) :
    row.matchesContent .chan m.conversationKey m.text (some m.timestamp) none := by
  obtain ⟨-, ht, hc, hx, -⟩ := holder_key_spec h
  exact MessageRow.matchesContent_iff.mpr ⟨ht, hc, hx, hts, rfl⟩

/-- The lookup of a duplicate selects the row that holds the index entry. -/
theorem getByContent_of_holder (h : t.holder m.key = some row)
    (hts : row.senderTimestamp = some m.timestamp) :
    getByContent t .chan m.conversationKey m.text (some m.timestamp) none = some row := by
  rw [getByContent_eq_some_iff]
  refine ⟨(holder_key_spec h).1, matches_of_holder h hts, fun q hq hlt => ?_⟩
  rw [← Bool.not_eq_true]
  intro hm
  rw [eq_of_matches h hq hm] at hlt
  exact Nat.lt_irrefl _ hlt

/-- The message is stored in exactly one row. -/
theorem storedIn_eq_singleton (h : t.holder m.key = some row)
    (hts : row.senderTimestamp = some m.timestamp) : m.storedIn t = [row] := by
  have hnodup : (m.storedIn t).Nodup := (List.Nodup.of_map _ t.nodup_ids).filter _
  have hmem : row ∈ m.storedIn t :=
    List.mem_filter.mpr ⟨(holder_key_spec h).1, matches_of_holder h hts⟩
  have hall : ∀ q ∈ m.storedIn t, q = row := by
    intro q hq
    obtain ⟨hqt, hqm⟩ := List.mem_filter.mp hq
    exact eq_of_matches h hqt hqm
  match hlist : m.storedIn t, hnodup, hmem, hall with
  | [], _, hmem, _ => simp at hmem
  | [q], _, _, hall => rw [hall q (by simp)]
  | q :: q' :: rest, hnodup, _, hall =>
      have hqq : q = q' := (hall q (by simp)).trans (hall q' (by simp)).symm
      simp [hqq] at hnodup

end Row

section Store

variable {sha256 : Bytes → Bytes} {m : ChannelMessage} {sender : Option Text}
  {mk : Option Text → NewMessage} {packetId : Option Nat} {o : Observation} {s s' : App}
  {x : Option Nat}

/-- What both ways to observe a message offer to the table. -/
structure Offers (m : ChannelMessage) (o : Observation) (n : NewMessage) : Prop where
  msgType : n.msgType = .chan
  conversationKey : n.conversationKey = m.conversationKey
  text : n.text = m.text
  senderTimestamp : n.senderTimestamp = some m.timestamp
  outgoing : n.outgoing = false
  paths : n.paths = o.entry.map ([·])

theorem Offers.dedupKey {n : NewMessage} (h : Offers m o n) : n.dedupKey = some m.key := by
  simp [NewMessage.dedupKey, MessageRow.dedupKey, NewMessage.toRow, ChannelMessage.key, h.msgType,
    h.conversationKey, h.text, h.senderTimestamp]

theorem resolveSenderKey_eval {senderKey : Option Text}
    (h : Program.Eval (process sha256) (resolveSenderKey sender) s senderKey s') : s' = s := by
  unfold resolveSenderKey at h
  split at h
  · simp_all
  · simp_all
  · simp only [Program.await_bind, Program.eval_call_iff, process_getContactsByName] at h
    obtain ⟨candidates, t, ⟨-, rfl⟩, h⟩ := h
    split at h <;> simp_all

/-- The first observation of a message stores it. -/
theorem storeChannelMessage_new (hmk : ∀ k, Offers m o (mk k)) (hfree : s.messages.holder m.key = none)
    (h : Program.Eval (process sha256) (storeChannelMessage sender mk packetId o) s x s') :
    ∃ row, Accounted m false o.entry.toList 0 s' row ∧
      s'.rawPackets = linkedPackets s.rawPackets packetId row.id ∧ s'.channels = s.channels := by
  simp only [storeChannelMessage, Program.eval_bind_iff] at h
  obtain ⟨senderKey, t, hsender, msgId, u, hcreate, h⟩ := h
  obtain rfl := resolveSenderKey_eval hsender
  have ho := hmk senderKey
  simp only [Program.await, Program.eval_call_iff, process_createMessage, Program.eval_pure_iff]
    at hcreate
  obtain ⟨_, _, ⟨rfl, rfl⟩, rfl, rfl⟩ := hcreate
  have hsome : (create t.messages (mk senderKey)).1 = some t.messages.nextId :=
    create_of_free ho.dedupKey hfree
  simp only [hsome, Program.eval_bind_iff, markDecrypted_eval] at h
  obtain ⟨-, v, rfl, h⟩ := h
  simp only [Program.pure_eq, Program.eval_pure_iff] at h
  obtain ⟨-, rfl⟩ := h
  refine ⟨(mk senderKey).toRow t.messages.nextId, ⟨?_, ho.senderTimestamp, ho.outgoing, ?_, rfl⟩,
    rfl, rfl⟩
  · exact (holder_create hsome m.key).trans (if_pos ho.dedupKey)
  · simp only [NewMessage.toRow, ho.paths]
    cases o.entry <;> rfl

/-- A further observation of a message is reconciled into its row. -/
theorem storeChannelMessage_known {outgoing : Bool} {paths : List MessagePath} {echoes : Nat}
    {row : MessageRow} (hmk : ∀ k, Offers m o (mk k)) (hacc : Accounted m outgoing paths echoes s row)
    (h : Program.Eval (process sha256) (storeChannelMessage sender mk packetId o) s x s') :
    ∃ row', Accounted m outgoing (paths ++ o.entry.toList) (echoes + 1) s' row' ∧
      row'.id = row.id ∧ s'.rawPackets = linkedPackets s.rawPackets packetId row.id ∧
      s'.channels = s.channels := by
  simp only [storeChannelMessage, Program.eval_bind_iff] at h
  obtain ⟨senderKey, t, hsender, msgId, u, hcreate, h⟩ := h
  obtain rfl := resolveSenderKey_eval hsender
  have ho := hmk senderKey
  simp only [Program.await, Program.eval_call_iff, process_createMessage, Program.eval_pure_iff]
    at hcreate
  obtain ⟨_, _, ⟨rfl, rfl⟩, rfl, rfl⟩ := hcreate
  have htaken : create t.messages (mk senderKey) = (none, t.messages) :=
    create_of_taken ho.dedupKey hacc.holds
  simp only [htaken, ho.conversationKey, ho.text, ho.senderTimestamp, Program.eval_bind_iff,
    handleDuplicateMessage, Program.await_bind, Program.eval_call_iff, process_getByContent,
    getByContent_of_holder hacc.holds hacc.timestamp] at h
  obtain ⟨_, v, ⟨_, _, ⟨rfl, rfl⟩, hrec⟩, h⟩ := h
  simp only [Program.pure_eq, Program.eval_pure_iff] at h
  obtain ⟨-, rfl⟩ := h
  obtain rfl := reconcileDuplicateMessage_eval.mp hrec
  obtain ⟨-, htype, -⟩ := holder_key_spec hacc.holds
  refine ⟨observedRow o row, ⟨holder_reconciledMessages o hacc.holds, ?_, ?_, ?_, ?_⟩, ?_, rfl, rfl⟩
  · rw [← hacc.timestamp]
    simp only [observedRow]
    cases o.entry <;> split <;> rfl
  · rw [← hacc.direction]
    simp only [observedRow]
    cases o.entry <;> split <;> rfl
  · rw [← hacc.paths_eq]
    simp only [observedRow]
    cases o.entry <;> split <;> simp [appendPath, bumpAck]
  · have hack := hacc.acked_eq
    simp only [observedRow, htype, and_true, hacc.direction]
    cases outgoing <;> cases o.entry <;> simp_all [appendPath, bumpAck]
  · simp only [observedRow]
    cases o.entry <;> split <;> rfl

end Store

section Observe

variable {env : Pipeline} {m : ChannelMessage} {o : ChannelObservation} {s s' : App}

/-- Every observation offers a row to the table, under the packet it came in. -/
theorem observe_offers (hobs : IsObservationOf env s.channels m o)
    (h : Program.Eval (process env.crypto.sha256) (observe env o) s () s') :
    ∃ sender mk packetId t x, (∀ k, Offers m o.heard (mk k)) ∧
      (∀ hash p, s.rawPackets.holder hash = some p → t.holder hash = some p) ∧
      (∀ hash ∈ packetHash env o, ∃ p, t.holder hash = some p ∧ packetId = some p.id) ∧
      Program.Eval (process env.crypto.sha256) (storeChannelMessage sender mk packetId o.heard)
        { s with rawPackets := t } x s' := by
  cases o with
  | fallback d =>
      obtain ⟨hkey, htext, hts⟩ := hobs
      simp only [observe, Program.eval_bind_iff, Program.pure_eq, Program.eval_pure_iff] at h
      obtain ⟨x, _, hx, -, rfl⟩ := h
      refine ⟨d.senderName, d.newMessage, none, s.rawPackets, x, fun k => ?_, fun _ _ hp => hp,
        by simp [packetHash], hx⟩
      refine ⟨rfl, hkey, htext, congrArg some hts, rfl, ?_⟩
      simp only [NewMessage.paths, FallbackChannelMessage.newMessage, ChannelObservation.heard,
        Observation.entry, FallbackChannelMessage.observation, Option.map_map]
      rfl
  | packet r =>
      obtain ⟨channel, d, hdec, hkey, htext, hts⟩ := hobs
      obtain ⟨info, created, t, x, hinfo, ht, hx⟩ := (processRawPacket_groupText hdec).mp h
      obtain ⟨⟨p, hp, hid⟩, hkeep⟩ := RawPacketRepository.create_spec ht
      refine ⟨d.sender, (liveChannelMessage r created.1 (some info)
        (packetScope env.crypto s.settings.knownRegions info) channel d).newMessage,
        some created.1, t, x, fun k => ?_, hkeep, ?_, ?_⟩
      · refine ⟨rfl, hkey, htext, congrArg some hts, rfl, ?_⟩
        simp only [NewMessage.paths, DecryptedChannelMessage.newMessage, ChannelObservation.heard,
          Observation.entry, DecryptedChannelMessage.observation, liveChannelMessage, hinfo,
          Reception.receivedAt, receivedOrNow_idem, Option.map_map]
        rfl
      · rintro hash hh
        simp only [packetHash, Option.mem_some_iff] at hh
        subst hh
        exact ⟨p, hp, by rw [hid]⟩
      · simpa only [createMessageFromDecrypted, DecryptedChannelMessage.observation,
          liveChannelMessage, ChannelObservation.heard, hinfo, Reception.receivedAt,
          receivedOrNow_idem] using hx

/-- Linking the packet of an observation keeps the earlier links to the same row. -/
theorem packetsLinked_snoc {obs : List ChannelObservation} {t : RawPacketTable}
    {packetId : Option Nat} {id : Nat} (hlinked : PacketsLinked env obs s id)
    (hkeep : ∀ hash p, s.rawPackets.holder hash = some p → t.holder hash = some p)
    (hnew : ∀ hash ∈ packetHash env o, ∃ p, t.holder hash = some p ∧ packetId = some p.id)
    (hs' : s'.rawPackets = linkedPackets t packetId id) :
    PacketsLinked env (obs ++ [o]) s' id := by
  have hholder : ∀ hash p, t.holder hash = some p → ∃ p', s'.rawPackets.holder hash = some p' ∧
      (p.messageId = some id ∨ packetId = some p.id → p'.messageId = some id) := by
    intro hash p hp
    rw [hs']
    cases packetId with
    | none => exact ⟨p, hp, by simp⟩
    | some pid =>
        refine ⟨if decide (p.id = pid) then { p with messageId := some id } else p, ?_, ?_⟩
        · simp only [linkedPackets, Option.elim_some, RawPacketRepository.holder_markDecrypted,
            hp, Option.map_some]
        · rintro (hlink | hpid)
          · split <;> simp [hlink]
          · simp [Option.some.inj hpid]
  intro o' ho' hash hh
  rcases List.mem_append.mp ho' with ho' | ho'
  · obtain ⟨p, hp, hlink⟩ := hlinked o' ho' hash hh
    obtain ⟨p', hp', himp⟩ := hholder hash p (hkeep hash p hp)
    exact ⟨p', hp', himp (Or.inl hlink)⟩
  · obtain rfl := List.mem_singleton.mp ho'
    obtain ⟨p, hp, hpid⟩ := hnew hash hh
    obtain ⟨p', hp', himp⟩ := hholder hash p hp
    exact ⟨p', hp', himp (Or.inr hpid)⟩

/-- The first observation of a message stores it and links its packet. -/
theorem observe_new (hobs : IsObservationOf env s.channels m o)
    (hfree : s.messages.holder m.key = none)
    (h : Program.Eval (process env.crypto.sha256) (observe env o) s () s') :
    ∃ row, Accounted m false (heardPaths [o]) 0 s' row ∧
      PacketsLinked env [o] s' row.id ∧ s'.channels = s.channels := by
  obtain ⟨sender, mk, packetId, t, x, hmk, hkeep, hnew, hx⟩ := observe_offers hobs h
  obtain ⟨row, hacc, hraw, hch⟩ :=
    storeChannelMessage_new (s := { s with rawPackets := t }) hmk hfree hx
  refine ⟨row, ?_, ?_, hch⟩
  · exact (heardPaths_snoc [] o) ▸ hacc
  · have hnone : PacketsLinked env [] s row.id := by simp [PacketsLinked]
    exact packetsLinked_snoc hnone hkeep hnew hraw

/-- A further observation adds its path, its echo and its packet. -/
theorem observe_known {outgoing : Bool} {obs : List ChannelObservation} {echoes : Nat}
    {row : MessageRow} (hobs : IsObservationOf env s.channels m o)
    (hacc : Accounted m outgoing (heardPaths obs) echoes s row)
    (hlinked : PacketsLinked env obs s row.id)
    (h : Program.Eval (process env.crypto.sha256) (observe env o) s () s') :
    ∃ row', Accounted m outgoing (heardPaths (obs ++ [o])) (echoes + 1) s'
        row' ∧
      PacketsLinked env (obs ++ [o]) s' row'.id ∧ s'.channels = s.channels := by
  obtain ⟨sender, mk, packetId, t, x, hmk, hkeep, hnew, hx⟩ := observe_offers hobs h
  have hacc' : Accounted m outgoing (heardPaths obs) echoes
      { s with rawPackets := t } row := ⟨hacc.1, hacc.2, hacc.3, hacc.4, hacc.5⟩
  obtain ⟨row', hrow, hid, hraw, hch⟩ := storeChannelMessage_known hmk hacc' hx
  refine ⟨row', ?_, ?_, hch⟩
  · exact (heardPaths_snoc obs o) ▸ hrow
  · exact hid ▸ packetsLinked_snoc hlinked hkeep hnew hraw

/-- From an accounted state, every sequence of observations stays accounted. -/
theorem observeAll_known {outgoing : Bool} {done rest : List ChannelObservation} {echoes : Nat}
    {row : MessageRow} (hobs : ∀ o ∈ rest, IsObservationOf env s.channels m o)
    (hacc : Accounted m outgoing (heardPaths done) echoes s row)
    (hlinked : PacketsLinked env done s row.id)
    (h : Program.Eval (process env.crypto.sha256) (observeAll env rest) s () s') :
    ∃ row', Accounted m outgoing (heardPaths (done ++ rest))
        (echoes + rest.length) s' row' ∧
      PacketsLinked env (done ++ rest) s' row'.id := by
  induction rest generalizing done echoes s row with
  | nil =>
      simp only [observeAll, Program.pure_eq, Program.eval_pure_iff] at h
      obtain ⟨-, rfl⟩ := h
      exact ⟨row, by simpa using hacc, by simpa using hlinked⟩
  | cons o rest ih =>
      simp only [observeAll, Program.eval_bind_iff] at h
      obtain ⟨_, t, ho, hrest⟩ := h
      obtain ⟨row₁, hacc₁, hlinked₁, hch⟩ := observe_known (hobs o (by simp)) hacc hlinked ho
      have hobs₁ : ∀ o' ∈ rest, IsObservationOf env t.channels m o' := by
        rw [hch]
        exact fun o' ho' => hobs o' (by simp [ho'])
      obtain ⟨row₂, hacc₂, hlinked₂⟩ := ih hobs₁ hacc₁ hlinked₁ hrest
      refine ⟨row₂, ?_, by simpa using hlinked₂⟩
      simpa [Nat.add_assoc, Nat.add_comm 1] using hacc₂

/-- Our own send of a new message stores a row without paths and acks. -/
theorem createOutgoingChannelMessage_new {d : OutgoingChannelMessage} {x : Option (Nat × Nat)}
    {sha256 : Bytes → Bytes} (hown : IsSendOf m d) (hfree : s.messages.holder m.key = none)
    (h : Program.Eval (process sha256) (createOutgoingChannelMessage d) s x s') :
    ∃ row, Accounted m true [] 0 s' row ∧ s'.channels = s.channels := by
  obtain ⟨hkey, htext, hts⟩ := hown
  have hdedup : d.newMessage.dedupKey = some m.key := by
    simp [NewMessage.dedupKey, MessageRow.dedupKey, NewMessage.toRow, ChannelMessage.key,
      OutgoingChannelMessage.newMessage, hkey, htext, hts]
  have hsome := create_of_free hdedup hfree
  simp only [createOutgoingChannelMessage, Program.await_bind, Program.eval_call_iff,
    process_createMessage] at h
  obtain ⟨_, _, ⟨rfl, rfl⟩, h⟩ := h
  simp only [hsome, Program.eval_call_iff, process_getAckAndPaths, Program.pure_eq,
    Program.eval_pure_iff] at h
  obtain ⟨_, _, ⟨-, rfl⟩, -, rfl⟩ := h
  refine ⟨d.newMessage.toRow s.messages.nextId, ⟨?_, ?_, rfl, rfl, rfl⟩, rfl⟩
  · exact (holder_create hsome m.key).trans (if_pos hdedup)
  · exact congrArg some hts

end Observe

section Answers

theorem storeChannelMessage_calls (sender : Option Text) (mk : Option Text → NewMessage)
    (packetId : Option Nat) (o : Observation) :
    (storeChannelMessage sender mk packetId o).Calls Op.Answers := by
  refine Program.Calls.bind ?_ fun senderKey => ?_
  · unfold resolveSenderKey
    split
    · simp
    · simp
    · refine Program.Calls.bind (by simp [Op.Answers]) fun candidates => ?_
      split <;> simp
  · refine Program.Calls.bind (by simp [Op.Answers]) fun msgId => ?_
    cases msgId with
    | none =>
        refine Program.Calls.bind ?_ fun _ => by simp
        apply handleDuplicateMessage_calls <;> simp [Op.Answers]
    | some id =>
        refine Program.Calls.bind ?_ fun _ => by simp
        exact markDecrypted_calls (by simp [Op.Answers]) id

theorem observe_calls {env : Pipeline} {channels : List Channel} {m : ChannelMessage}
    {o : ChannelObservation} (hobs : IsObservationOf env channels m o) :
    (observe env o).Calls Op.Answers := by
  cases o with
  | fallback d =>
      exact Program.Calls.bind (storeChannelMessage_calls _ _ _ _) fun _ => by simp
  | packet r =>
      obtain ⟨channel, d, hdec, -⟩ := hobs
      obtain ⟨info, hinfo, htype⟩ := decryptingChannel_parses hdec
      refine Program.Calls.bind (by simp [Op.Answers]) fun created => ?_
      simp only [hinfo]
      refine Program.Calls.bind ?_ fun scope => ?_
      · unfold resolveScope
        split <;> simp [Op.Answers]
      · simp only [processPayload, htype]
        refine Program.Calls.bind (by simp [Op.Answers]) fun stored => ?_
        split
        · simp
        · exact Program.Calls.bind (storeChannelMessage_calls _ _ _ _) fun _ => by simp

theorem sendAndObserve_calls {env : Pipeline} {channels : List Channel} {m : ChannelMessage}
    (own : Option OutgoingChannelMessage) {obs : List ChannelObservation}
    (hobs : ∀ o ∈ obs, IsObservationOf env channels m o) :
    (sendAndObserve env own obs).Calls Op.Answers := by
  have hall : (observeAll env obs).Calls Op.Answers := by
    induction obs with
    | nil => simp [observeAll]
    | cons o rest ih =>
        exact Program.Calls.bind (observe_calls (hobs o (by simp))) fun _ =>
          ih fun o' ho' => hobs o' (by simp [ho'])
  cases own with
  | none => exact hall
  | some d =>
      refine Program.Calls.bind ?_ fun _ => hall
      refine Program.Calls.bind (by simp [Op.Answers]) fun msgId => ?_
      cases msgId with
      | none => simp
      | some id => exact Program.Calls.bind (by simp [Op.Answers]) fun _ => by simp

end Answers

/-- Every observation of a channel message ends in one row: its paths are those the
observations carried, its acks the echoes of our own send, and every packet that
decrypted to it is linked to it. -/
theorem channel_observations_accounted (env : Pipeline) (s : App) (m : ChannelMessage)
    (own : Option OutgoingChannelMessage) (obs : List ChannelObservation)
    (hfree : s.messages.holder m.key = none) (hown : ∀ d ∈ own, IsSendOf m d)
    (hobs : ∀ o ∈ obs, IsObservationOf env s.channels m o) (hsome : own.isSome ∨ obs ≠ []) :
    (∃ s', Program.Eval (process env.crypto.sha256) (sendAndObserve env own obs) s () s') ∧
      ∀ s', Program.Eval (process env.crypto.sha256) (sendAndObserve env own obs) s () s' →
        ∃ row, m.storedIn s'.messages = [row] ∧ row.paths.getD [] = heardPaths obs ∧
          row.outgoing = own.isSome ∧ (row.acked = if own.isSome then obs.length else 0) ∧
          PacketsLinked env obs s' row.id := by
  constructor
  · obtain ⟨_, s', h⟩ := (sendAndObserve_calls own hobs).eval
      (process_answers env.crypto.sha256) s
    exact ⟨s', h⟩
  · intro s' h
    have hfinal : ∃ row, Accounted m own.isSome (heardPaths obs) obs.length s' row ∧
        PacketsLinked env obs s' row.id := by
      cases own with
      | some d =>
          simp only [sendAndObserve, Program.eval_bind_iff] at h
          obtain ⟨_, t, hsend, hrest⟩ := h
          obtain ⟨row, hacc, hch⟩ :=
            createOutgoingChannelMessage_new (hown d (by simp)) hfree hsend
          have hacc₀ : Accounted m true (heardPaths []) 0 t row := hacc
          have hnone : PacketsLinked env [] t row.id := by simp [PacketsLinked]
          obtain ⟨row', hacc', hlinked⟩ := observeAll_known (by rwa [hch]) hacc₀ hnone hrest
          exact ⟨row', by simpa using hacc', by simpa using hlinked⟩
      | none =>
          cases obs with
          | nil => simp at hsome
          | cons o rest =>
              simp only [sendAndObserve, observeAll, Program.eval_bind_iff] at h
              obtain ⟨_, t, ho, hrest⟩ := h
              obtain ⟨row, hacc, hlinked, hch⟩ := observe_new (hobs o (by simp)) hfree ho
              have hobs' : ∀ o' ∈ rest, IsObservationOf env t.channels m o' := by
                rw [hch]
                exact fun o' ho' => hobs o' (by simp [ho'])
              obtain ⟨row', hacc', hlinked'⟩ := observeAll_known hobs' hacc hlinked hrest
              refine ⟨row', ⟨hacc'.1, hacc'.2, hacc'.3, hacc'.4, ?_⟩, hlinked'⟩
              simpa using hacc'.acked_eq
    obtain ⟨row, hacc, hlinked⟩ := hfinal
    exact ⟨row, storedIn_eq_singleton hacc.holds hacc.timestamp, hacc.paths_eq, hacc.direction,
      hacc.acked_eq, hlinked⟩

section Sample

/-- A key of the public channel, and one message encrypted under it. -/
def sampleKey : Bytes :=
  [0x8b, 0x33, 0x87, 0xe9, 0xc5, 0xcd, 0xea, 0x6a, 0xc9, 0xe5, 0xed, 0xba, 0xa1, 0x15, 0xcd, 0x72]

def samplePlaintext : Bytes :=
  [0x00, 0xf1, 0x53, 0x65, 0x00, 0x41, 0x6c, 0x3a, 0x20, 0x68, 0x69, 0x00, 0x00, 0x00, 0x00, 0x00]

def sampleCiphertext : Bytes :=
  [0xd3, 0xf7, 0xb2, 0x75, 0xbb, 0x3b, 0x8b, 0x22, 0xb6, 0xa1, 0xa3, 0xf7, 0x1c, 0x94, 0x0d, 0x60]

def samplePayload : Bytes := [0x11, 0x56, 0xa4] ++ sampleCiphertext

/-- The region whose code the scoped sample packet carries, and its transport key. -/
def sampleRegion : Text := "Esperance".toList

def sampleRegionKey : Bytes :=
  [0x75, 0x89, 0x92, 0x28, 0xb2, 0x03, 0x2d, 0x72, 0x9e, 0xcb, 0x8a, 0x11, 0xf7, 0x3c, 0x23, 0x37]

/-- The values of the real primitives on the sample packets. -/
def sampleCrypto : Crypto where
  sha256 b :=
    if b = sampleKey then
      [0x11, 0x55, 0xf1, 0x87, 0x0f, 0x91, 0x77, 0x86, 0x46, 0x97, 0x2b, 0x7b, 0xde, 0x74, 0x7d,
        0x98, 0x9c, 0xf9, 0xf9, 0x54, 0x16, 0xb5, 0x08, 0x29, 0x66, 0x60, 0x36, 0x56, 0x33, 0x65,
        0x42, 0x4d]
    else if b = samplePayload then
      [0xda, 0xd9, 0x1c, 0xd8, 0xcc, 0x80, 0xa8, 0x9e, 0x23, 0xa8, 0xad, 0x35, 0x3e, 0x45, 0xdd,
        0x57, 0xe1, 0xf4, 0xc6, 0x49, 0x80, 0x0e, 0x8c, 0xd2, 0x79, 0x6c, 0x1b, 0x58, 0x19, 0x7b,
        0x81, 0x51]
    else if b = (String.ofList ('#' :: sampleRegion)).toUTF8.toList then
      sampleRegionKey ++
        [0x89, 0x6d, 0x15, 0xda, 0x96, 0x61, 0xe1, 0xd9, 0xc6, 0x0a, 0x3f, 0x99, 0xcf, 0x62, 0xd9,
          0x66]
    else []
  hmacSha256 k b :=
    if k = sampleKey ++ List.replicate 16 0 ∧ b = sampleCiphertext then
      [0x56, 0xa4, 0x6f, 0x4e, 0x95, 0x82, 0xcf, 0xa3, 0xe2, 0x77, 0x3b, 0x88, 0x2a, 0x98, 0x69,
        0x0c, 0x54, 0xb8, 0xa5, 0x57, 0x78, 0x58, 0x8a, 0xca, 0xa3, 0x73, 0x49, 0x59, 0xfa, 0x47,
        0x31, 0xa4]
    else if k = sampleRegionKey ∧ b = 0x05 :: samplePayload then
      [0x8a, 0xb0, 0x5e, 0x3a, 0x7e, 0x5d, 0x08, 0x16, 0x03, 0x3c, 0x90, 0xf2, 0x5d, 0x4e, 0x1f,
        0xe3, 0x97, 0xab, 0xeb, 0xf3, 0xb3, 0x51, 0xb7, 0x6a, 0xd9, 0xdf, 0x19, 0xd8, 0x24, 0x08,
        0x79, 0xd3]
    else []
  aesEcbDecrypt k b := if k = sampleKey ∧ b = sampleCiphertext then some samplePlaintext else none
  deriveSharedSecret _ _ := none
  derivePublicKey _ := []

def samplePipeline : Pipeline := ⟨sampleCrypto, none⟩

def sampleChannel : Channel := ⟨"8B3387E9C5CDEA6AC9E5EDBAA115CD72".toList, "Public".toList⟩

def sampleApp : App := { App.empty with channels := [sampleChannel] }

def sampleMessage : ChannelMessage := ⟨sampleChannel.key, "Al: hi".toList, 1700000000⟩

/-- The sample packet on a flood route, heard over a path. -/
def sampleReception (path : UInt8) : Reception where
  rawBytes := [0x15, 0x01, path] ++ samplePayload
  now := 1700000001

def sampleSend : OutgoingChannelMessage where
  conversationKey := sampleChannel.key
  text := "Al: hi".toList
  senderTimestamp := 1700000000
  receivedAt := 1700000000
  senderName := some "Al".toList
  senderKey := none

def sampleFallback : FallbackChannelMessage where
  conversationKey := sampleChannel.key
  messageText := "hi".toList
  senderTimestamp := 1700000000
  receivedAt := 1700000002
  path := none
  pathLen := none
  txtType := 0
  senderName := some "Al".toList

theorem sample_decrypts {path : UInt8} (h : path = 0xaa ∨ path = 0xbb) :
    IsObservationOf samplePipeline [sampleChannel] sampleMessage (.packet (sampleReception path)) := by
  refine ⟨sampleChannel, ⟨1700000000, 0, some "Al".toList, "hi".toList, "11".toList⟩, ?_, by decide,
    by decide, by decide⟩
  rcases h with rfl | rfl <;> decide

/-- Our own send, two receptions of its packet and a library event. -/
theorem channel_observations_accounted_sample :
    ∃ s' row, Program.Eval (process sampleCrypto.sha256)
      (sendAndObserve samplePipeline (some sampleSend)
        [.packet (sampleReception 0xaa), .fallback sampleFallback, .packet (sampleReception 0xbb)])
      sampleApp () s' ∧
      sampleMessage.storedIn s'.messages = [row] ∧ row.acked = 3 ∧
      (row.paths.getD []).map MessagePath.path = ["aa".toList, "bb".toList] := by
  obtain ⟨⟨s', h⟩, hall⟩ := channel_observations_accounted samplePipeline sampleApp sampleMessage
    (some sampleSend)
    [.packet (sampleReception 0xaa), .fallback sampleFallback, .packet (sampleReception 0xbb)]
    (by decide) (by simpa [IsSendOf] using by decide)
    (by
      simp only [List.forall_mem_cons, List.not_mem_nil, false_implies, implies_true, and_true]
      exact ⟨sample_decrypts (Or.inl rfl), by unfold IsObservationOf; decide,
        sample_decrypts (Or.inr rfl)⟩)
    (Or.inl rfl)
  obtain ⟨row, hrow, hpaths, -, hacked, -⟩ := hall s' h
  refine ⟨s', row, h, hrow, hacked, ?_⟩
  rw [hpaths]
  decide

end Sample

end RemoteTerm
