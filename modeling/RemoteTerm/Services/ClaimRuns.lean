import RemoteTerm.Services.DmIngest
import RemoteTerm.Services.Frames

/-!
# When claiming prefix messages is safe

A direct message from an unresolved sender is stored under a prefix of the
sender's key, and claimed when a single contact with that prefix is known. The
claim collides when the same message also stands under the full key, or under
another prefix of it. No such pair of rows arises in a run whose inserts keep
the rows under a key apart, whatever contacts are added or deleted in between.

## Implementation notes

The run is over the calls of any tasks, so every order and every interleaving of
ingesting, adding and deleting is one. Keys are hexadecimal: a key that holds an
SQL wildcard matches more than its own continuations.
-/

namespace RemoteTerm

open Library MessageRepository

/-- The row stands under a proper prefix of the key. -/
def ShortFor (key : Text) (r : MessageRow) : Prop :=
  r.conversationKey.length < 64 ∧ like (r.conversationKey ++ ['%']) key = true

instance (key : Text) (r : MessageRow) : Decidable (ShortFor key r) := by
  unfold ShortFor
  infer_instance

/-- The row is an incoming direct message under the key or under a prefix of it. -/
def UnderKey (key : Text) (r : MessageRow) : Prop :=
  r.type = .priv ∧ r.outgoing = false ∧ (ShortFor key r ∨ r.conversationKey = key)

/-- The author that a row has once its prefix is claimed. -/
def authorUnder (key : Text) (r : MessageRow) : Text :=
  if ShortFor key r then (claimSenderKey key r.senderKey).getD [] else r.senderKey.getD []

/-- One message under a prefix of the key and again under the key or another prefix. -/
def MergesInto (key : Text) (a b : MessageRow) : Prop :=
  ShortFor key a ∧ UnderKey key a ∧ UnderKey key b ∧ a.text = b.text ∧
    a.senderTimestamp.getD 0 = b.senderTimestamp.getD 0 ∧ authorUnder key a = authorUnder key b

instance (key : Text) (a b : MessageRow) : Decidable (MergesInto key a b) := by
  unfold MergesInto UnderKey
  infer_instance

/-- The keys of a direct message are hexadecimal. -/
def HexRow (r : MessageRow) : Prop :=
  r.type = .priv → isHex r.conversationKey ∧ ∀ k ∈ r.senderKey, isHex k

instance (r : MessageRow) : Decidable (HexRow r) := by
  unfold HexRow
  infer_instance

/-- No message is stored twice under the prefixes of a key. -/
structure Apart (key : Text) (t : MessageTable) : Prop where
  hex : ∀ r ∈ t.rows, HexRow r
  apart : ∀ a ∈ t.rows, ∀ b ∈ t.rows, a.id ≠ b.id → ¬ MergesInto key a b

theorem apart_empty (key : Text) : Apart key .empty :=
  ⟨fun _ hr => by simp [Table.empty] at hr, fun _ ha => by simp [Table.empty] at ha⟩

/-- A call keeps the rows of a key apart: an insert that the index accepts does not repeat, under
one prefix of the key, a message that is stored under another or under the key itself. -/
def KeepsApart (key : Text) (op : Op) (s : App) : Prop :=
  match op with
  | .createMessage m => (create s.messages m).1.isSome →
      HexRow (m.toRow 0) ∧ ∀ r ∈ s.messages.rows,
        ¬ MergesInto key r (m.toRow 0) ∧ ¬ MergesInto key (m.toRow 0) r
  | .claimPrefixMessages fullKey => isHex (lower fullKey)
  | _ => True

instance (key : Text) (op : Op) (s : App) : Decidable (KeepsApart key op s) := by
  unfold KeepsApart
  split <;> infer_instance

section Claim

variable {contacts : ContactTable} {t : MessageTable} {key lowerKey : Text} {a b r : MessageRow}

/-- Claiming for a prefix of a key first does not change the author under the key. -/
theorem claimSenderKey_trans {senderKey : Option Text} (hs : ∀ k ∈ senderKey, isHex k)
    (hhex : isHex lowerKey) (hlen : lowerKey.length < 64)
    (hlike : like (lowerKey ++ ['%']) key) :
    claimSenderKey key (claimSenderKey lowerKey senderKey) = claimSenderKey key senderKey := by
  cases senderKey with
  | none => rfl
  | some k =>
      simp only [claimSenderKey, Option.map_some, Option.some.injEq]
      by_cases hk : k.length < 64 ∧ like (k ++ ['%']) lowerKey = true
      · have hkey : like (k ++ ['%']) key = true := like_hex_trans (hs k rfl) hhex hk.2 hlike
        rw [if_pos hk, if_pos ⟨hlen, hlike⟩, if_pos ⟨hk.1, hkey⟩]
      · rw [if_neg hk]

theorem hexRow_afterClaim (hhex : isHex lowerKey) (hr : HexRow r) :
    HexRow (afterClaim contacts lowerKey r) := by
  unfold afterClaim
  split
  next =>
    intro htype
    refine ⟨hhex, fun k hk => ?_⟩
    obtain ⟨s, hs, rfl⟩ := Option.map_eq_some_iff.mp hk
    split
    · exact hhex
    · exact (hr htype).2 s hs
  next => exact hr

/-- A row under a key after a claim stood under it before, with the same author. -/
theorem underKey_afterClaim (hkey : key.length = 64) (hhex : isHex lowerKey) (hr : HexRow r)
    (h : UnderKey key (afterClaim contacts lowerKey r)) :
    UnderKey key r ∧ authorUnder key (afterClaim contacts lowerKey r) = authorUnder key r ∧
      (ShortFor key (afterClaim contacts lowerKey r) → ShortFor key r) := by
  by_cases hc : isClaimed contacts lowerKey r
  · simp only [afterClaim, if_pos hc] at h ⊢
    obtain ⟨htype, hlen, hlike, -⟩ := isClaimed_iff.mp hc
    obtain ⟨hconv, hsender⟩ := hr htype
    obtain ⟨-, hout, hshort | hfull⟩ := h
    · have hrow : ShortFor key r := ⟨hlen, like_hex_trans hconv hhex hlike hshort.2⟩
      refine ⟨⟨htype, hout, .inl hrow⟩, ?_, fun _ => hrow⟩
      simp only [authorUnder, if_pos hshort, if_pos hrow, claimRow_senderKey,
        claimSenderKey_trans hsender hhex hshort.1 hshort.2]
    · have hsame : lowerKey = key := hfull
      subst hsame
      have hrow : ShortFor lowerKey r := ⟨hlen, hlike⟩
      have hnot : ¬ ShortFor lowerKey (claimRow lowerKey r) := by
        rintro ⟨hlt, -⟩
        have hlt' : lowerKey.length < 64 := hlt
        omega
      refine ⟨⟨htype, hout, .inl hrow⟩, ?_, fun _ => hrow⟩
      simp only [authorUnder, if_pos hrow, if_neg hnot, claimRow_senderKey]
  · rw [afterClaim, if_neg hc] at h ⊢
    exact ⟨h, rfl, id⟩

/-- A claim brings no two rows of a key together. -/
theorem mergesInto_of_afterClaim (hkey : key.length = 64) (hhex : isHex lowerKey)
    (ha : HexRow a) (hb : HexRow b)
    (h : MergesInto key (afterClaim contacts lowerKey a) (afterClaim contacts lowerKey b)) :
    MergesInto key a b := by
  have hsame : ∀ r : MessageRow, (afterClaim contacts lowerKey r).text = r.text ∧
      (afterClaim contacts lowerKey r).senderTimestamp = r.senderTimestamp := by
    intro r
    unfold afterClaim
    split <;> exact ⟨rfl, rfl⟩
  obtain ⟨hshort, hua, hub, htext, htime, hauthor⟩ := h
  obtain ⟨ha', haa, has⟩ := underKey_afterClaim hkey hhex ha hua
  obtain ⟨hb', hba, -⟩ := underKey_afterClaim hkey hhex hb hub
  refine ⟨has hshort, ha', hb', ?_, ?_, haa.symm.trans (hauthor.trans hba)⟩
  · rwa [(hsame a).1, (hsame b).1] at htext
  · rwa [(hsame a).2, (hsame b).2] at htime

/-- A colliding claim meets one message under two keys. -/
theorem mergesInto_of_collides (hkey : key.length = 64) (h : ClaimCollides contacts t key) :
    ∃ a ∈ t.rows, ∃ b ∈ t.rows, a.id ≠ b.id ∧ MergesInto key a b := by
  obtain ⟨a, ha, b, hb, hne, hca, hunder, hao, hbo, htext, htime, hauthor⟩ := h
  have hclaimed : ∀ r, isClaimed contacts key r = true → ShortFor key r ∧
      authorUnder key r = (afterClaim contacts key r).senderKey.getD [] := by
    intro r hr
    have hshort : ShortFor key r := ⟨(isClaimed_iff.mp hr).2.1, (isClaimed_iff.mp hr).2.2.1⟩
    exact ⟨hshort, by simp only [authorUnder, if_pos hshort, afterClaim, if_pos hr,
      claimRow_senderKey]⟩
  obtain ⟨hsa, haa⟩ := hclaimed a hca
  refine ⟨a, ha, b, hb, hne, hsa, ⟨(isClaimed_iff.mp hca).1, hao, .inl hsa⟩, ?_⟩
  by_cases hcb : isClaimed contacts key b
  · obtain ⟨hsb, hba⟩ := hclaimed b hcb
    exact ⟨⟨(isClaimed_iff.mp hcb).1, hbo, .inl hsb⟩, htext, htime,
      haa.trans (hauthor.trans hba.symm)⟩
  · obtain ⟨hbt, hbk⟩ := hunder.resolve_left hcb
    have hnot : ¬ ShortFor key b := by
      rintro ⟨hlt, -⟩
      rw [hbk] at hlt
      omega
    refine ⟨⟨hbt, hbo, .inr hbk⟩, htext, htime, haa.trans (hauthor.trans ?_)⟩
    simp only [afterClaim, if_neg hcb, authorUnder, if_neg hnot]

end Claim

section Runs

variable {sha256 : Bytes → Bytes} {op : Op} {s s' : App} {x : op.Ans} {key : Text}

/-- An update outside the columns that a claim reads keeps the rows of a key apart. -/
theorem apart_map {t t' : MessageTable} {f : MessageRow → MessageRow} (h : Apart key t)
    (hrows : t'.rows = t.rows.map f) (hid : ∀ r, (f r).id = r.id)
    (hhex : ∀ r, HexRow r → HexRow (f r))
    (hmerge : ∀ a ∈ t.rows, ∀ b ∈ t.rows, MergesInto key (f a) (f b) → MergesInto key a b) :
    Apart key t' := by
  constructor
  · intro r hr
    rw [hrows] at hr
    obtain ⟨q, hq, rfl⟩ := List.mem_map.mp hr
    exact hhex q (h.hex q hq)
  · intro a ha b hb hne
    rw [hrows] at ha hb
    obtain ⟨a, hat, rfl⟩ := List.mem_map.mp ha
    obtain ⟨b, hbt, rfl⟩ := List.mem_map.mp hb
    rw [hid, hid] at hne
    exact fun hm => h.apart a hat b hbt hne (hmerge a hat b hbt hm)

theorem apart_updateById {t : MessageTable} {id : Nat} {f : MessageRow → MessageRow}
    (hid : ∀ r, (f r).id = r.id) (hdedup : ∀ r, (f r).dedupKey = r.dedupKey) (h : Apart key t)
    (hf : ∀ r, ∃ paths acked, f r = { r with paths := paths, acked := acked }) :
    Apart key (updateById t id f hid hdedup) := by
  have hrow : ∀ r, ∃ paths acked, (if r.id = id then f r else r) =
      { r with paths := paths, acked := acked } := by
    intro r
    split
    · exact hf r
    · exact ⟨r.paths, r.acked, rfl⟩
  refine apart_map h (updateById_rows t id f hid hdedup) ?_ ?_ ?_
  · intro r
    obtain ⟨paths, acked, hr⟩ := hrow r
    rw [hr]
  · intro r hhex
    obtain ⟨paths, acked, hr⟩ := hrow r
    rw [hr]
    exact hhex
  · intro a _ b _ hm
    obtain ⟨paths, acked, ha⟩ := hrow a
    obtain ⟨paths', acked', hb⟩ := hrow b
    rw [ha, hb] at hm
    exact hm

/-- Every call that meets the condition keeps the rows of a key apart. -/
theorem apart_step (hkey : key.length = 64) (hok : KeepsApart key op s)
    (h : process sha256 op s x s') (hI : Apart key s.messages) : Apart key s'.messages := by
  cases op with
  | createMessage m =>
      obtain ⟨-, rfl⟩ := process_createMessage.mp h
      cases hc : (create s.messages m).1 with
      | none =>
          simp only [create_of_none hc]
          exact hI
      | some n =>
          obtain ⟨-, hrows, -⟩ := create_of_some hc
          obtain ⟨hhex, hnew⟩ := hok (by rw [hc]; rfl)
          constructor
          · intro r hr
            rw [hrows] at hr
            rcases List.mem_append.mp hr with hr | hr
            · exact hI.hex r hr
            · obtain rfl := List.mem_singleton.mp hr
              exact hhex
          · intro a ha b hb hne
            rw [hrows] at ha hb
            rcases List.mem_append.mp ha with ha | ha <;> rcases List.mem_append.mp hb with hb | hb
            · exact hI.apart a ha b hb hne
            · obtain rfl := List.mem_singleton.mp hb
              exact (hnew a ha).1
            · obtain rfl := List.mem_singleton.mp ha
              exact (hnew b hb).2
            · obtain rfl := List.mem_singleton.mp ha
              obtain rfl := List.mem_singleton.mp hb
              exact absurd rfl hne
  | addPath id p =>
      obtain rfl := process_addPath.mp h
      exact apart_updateById (f := appendPath p) (fun _ => rfl) (fun _ => rfl) hI
        fun r => ⟨_, r.acked, rfl⟩
  | incrementAckCount id =>
      obtain ⟨-, rfl⟩ := process_incrementAckCount.mp h
      exact apart_updateById (f := bumpAck) (fun _ => rfl) (fun _ => rfl) hI
        fun r => ⟨r.paths, _, rfl⟩
  | claimPrefixMessages fullKey =>
      rw [process_claimPrefixMessages] at h
      split at h
      next =>
        obtain ⟨-, rfl⟩ := h
        exact hI
      next n t' hclaim =>
        obtain ⟨-, rfl⟩ := h
        refine apart_map hI (claimPrefixMessages_rows hclaim).1 afterClaim_id
          (fun r => hexRow_afterClaim hok) ?_
        exact fun a ha b hb => mergesInto_of_afterClaim hkey hok (hI.hex a ha) (hI.hex b hb)
  | _ =>
      rw [process_messages h rfl]
      exact hI

/-- A run that starts without a message under two prefixes of a key, and whose inserts keep
the rows under the key apart, only reaches states in which claiming for the key is safe. -/
theorem claims_safe_in_run {α : Type} {p q : Pool Op Op.Ans α App} {fullKey : Text}
    (hlen : fullKey.length = 64) (hstart : Apart (lower fullKey) p.shared.messages)
    (run : Pool.Run (process sha256) (Pool.onCall fun _ => KeepsApart (lower fullKey)) p q) :
    ClaimSafe q.shared.contacts q.shared.messages fullKey := by
  have hkey : (lower fullKey).length = 64 := by simpa using hlen
  have hI : Apart (lower fullKey) q.shared.messages := by
    refine run.invariant (I := fun a => Apart (lower fullKey) a.shared.messages) ?_ hstart
    rintro a b i ha hc ⟨hi, hx⟩
    exact apart_step hkey ((Pool.onCall_call hi).mp hc) hx ha
  rw [claimSafe_iff hkey]
  intro hcollides
  obtain ⟨a, ha, b, hb, hne, hm⟩ := mergesInto_of_collides hkey hcollides
  exact hI.apart a ha b hb hne hm

end Runs

section Sample

/-- What happens to contacts and their messages in a history. -/
inductive HistoryEvent where
  | addContact (u : ContactUpsert)
  | deleteContact (publicKey : Text)
  | receive (e : ContactMessageEvent)

/-- The task of an event. -/
def HistoryEvent.task : HistoryEvent → Task Unit
  | .addContact u => await (.upsertContact u)
  | .deleteContact publicKey => await (.deleteContact publicKey)
  | .receive e => do
      let _ ← onContactMessage e
      pure ()

/-- The tasks of a history over an empty database. -/
def historyPool (events : List HistoryEvent) : Pool Op Op.Ans Unit App :=
  ⟨App.empty, events.map HistoryEvent.task⟩

/-- The key of a contact, and the prefix of it that the radio reports. -/
def fullKeyB : Text := List.replicate 64 'b'

def prefixB : Text := List.replicate 12 'b'

/-- One message, from a sender that is reported by its prefix. -/
def eventB (timestamp : Int) : ContactMessageEvent where
  pubkeyPrefix := prefixB
  text := "hello".toList
  senderTimestamp := some timestamp
  now := timestamp + 1

/-- A message from an unknown sender, the sender's contact, and a later message. -/
def firstContact : List HistoryEvent :=
  [.receive (eventB 1700000000), .addContact { publicKey := fullKeyB },
   .receive { eventB 1700000100 with publicKey := some fullKeyB }]

/-- The claim for a contact whose first message came before it was known is safe. -/
theorem claims_safe_in_run_firstContact :
    ∃ q, Pool.Run (process id) (Pool.onCall fun _ => KeepsApart (lower fullKeyB))
        (historyPool firstContact) q ∧ q.Finished ∧
      ClaimSafe q.shared.contacts q.shared.messages fullKeyB := by
  have hexec : (Pool.exec (perform id) (fun _ op s => decide (KeepsApart (lower fullKeyB) op s))
      ((List.replicate 7 0 ++ [1] ++ List.replicate 6 2).map fun i => (i, default))
      (historyPool firstContact)).any (fun q => decide q.Finished) = true := by
    decide +kernel
  obtain ⟨q, hrun, hfinished⟩ := Pool.exec_reaches hexec
  have run : Pool.Run (process id) (Pool.onCall fun _ => KeepsApart (lower fullKeyB))
      (historyPool firstContact) q :=
    hrun.mono fun _ _ h op hop => of_decide_eq_true (h op hop)
  exact ⟨q, run, hfinished, claims_safe_in_run (by decide) (apart_empty _) run⟩

/-- A message is stored for a known contact, the contact is deleted, the message is heard
again, and the contact is added again. -/
def readdedContact : List HistoryEvent :=
  [.addContact { publicKey := fullKeyB }, .receive (eventB 1700000000), .deleteContact fullKeyB,
   .receive (eventB 1700000000), .addContact { publicKey := fullKeyB }]

/-- The message now stands under the prefix and under the full key, and the claim fails. -/
theorem claim_refused_after_readding :
    ∃ q, Pool.Run (process id) Pool.always (historyPool readdedContact) q ∧ q.Finished ∧
      ¬ ClaimSafe q.shared.contacts q.shared.messages fullKeyB := by
  have hexec : (Pool.exec (perform id) (fun _ _ _ => true)
      (([0] ++ List.replicate 6 1 ++ [2] ++ List.replicate 7 3 ++ [4]).map fun i => (i, default))
      (historyPool readdedContact)).any (fun q => decide (q.Finished ∧
        ClaimCollides q.shared.contacts q.shared.messages (lower fullKeyB))) = true := by
    decide +kernel
  obtain ⟨q, hrun, hfinished, hcollides⟩ := Pool.exec_reaches hexec
  refine ⟨q, hrun.mono fun _ _ _ => trivial, hfinished, ?_⟩
  rw [claimSafe_iff (by decide)]
  exact not_not_intro hcollides

end Sample

end RemoteTerm
