import Mathlib.Data.List.Infix
import RemoteTerm.Library.Interference
import RemoteTerm.Services.DmDeliveries

/-!
# A storing step leaves its row

The two handlers of library events, run among whatever else the process does: when
the run of a handler returns, the row of its message stands in the table and stays
there, unless the sender turned out to be a repeater or the lookup met the row of
another author.

## Implementation notes

A conversation that is keyed by a prefix is renamed when the full key is known. So a
key is compared with what it may be renamed to: keys that it is a prefix of in the
sense of `LIKE`.
-/

namespace RemoteTerm

open Library MessageRepository ContactRepository

/-- What the other tasks of the process may do: make calls, and write the channels. -/
def Others (sha256 : Bytes → Bytes) : App → App → Prop :=
  Relation.ReflTransGen fun s s' =>
    (∃ op x, process sha256 op s x s') ∨ ∃ channels, s' = { s with channels := channels }

/-- A run of a task among the others. -/
abbrev RunsAmong {α : Type} (sha256 : Bytes → Bytes) (p : Task α) (s : App)
    (answers : List ((op : Op) × op.Ans)) (ending : Program.Ending α) (t : App) : Prop :=
  Program.Among (process sha256) (Others sha256) p s answers ending t

/-- A key, or one that it was a prefix of. -/
def StandsFor : Text → Text → Prop :=
  Relation.ReflTransGen fun key key' => like (key ++ ['%']) key' = true

/-- A row after calls of any tasks. -/
structure RowLater (r r' : MessageRow) : Prop where
  type : r'.type = r.type
  text : r'.text = r.text
  senderTimestamp : r'.senderTimestamp = r.senderTimestamp
  outgoing : r'.outgoing = r.outgoing
  conversationKey : StandsFor r.conversationKey r'.conversationKey
  channel : r.type = .chan → r'.conversationKey = r.conversationKey
  senderKey : StandsFor (r.senderKey.getD []) (r'.senderKey.getD [])

theorem RowLater.refl (r : MessageRow) : RowLater r r :=
  ⟨rfl, rfl, rfl, rfl, .refl, fun _ => rfl, .refl⟩

theorem RowLater.trans {a b c : MessageRow} (hab : RowLater a b) (hbc : RowLater b c) :
    RowLater a c where
  type := hbc.type.trans hab.type
  text := hbc.text.trans hab.text
  senderTimestamp := hbc.senderTimestamp.trans hab.senderTimestamp
  outgoing := hbc.outgoing.trans hab.outgoing
  conversationKey := hab.conversationKey.trans hbc.conversationKey
  channel := fun h => (hbc.channel (hab.type.trans h)).trans (hab.channel h)
  senderKey := hab.senderKey.trans hbc.senderKey

section Rows

variable {sha256 : Bytes → Bytes} {s t : App} {r : MessageRow}

theorem rowLater_afterClaim (contacts : ContactTable) (fullKey : Text) (r : MessageRow) :
    RowLater r (afterClaim contacts (lower fullKey) r) := by
  unfold afterClaim
  split
  next h =>
    obtain ⟨htype, -, hlike, -⟩ := isClaimed_iff.mp h
    refine ⟨rfl, rfl, rfl, rfl, .single hlike, fun hchan => ?_, ?_⟩
    · cases htype.symm.trans hchan
    · change StandsFor _ ((claimSenderKey (lower fullKey) r.senderKey).getD [])
      unfold claimSenderKey
      cases r.senderKey with
      | none => exact .refl
      | some author =>
          simp only [Option.map_some, Option.getD_some]
          split
          next hauthor => exact .single hauthor.2
          next => exact .refl
  next => exact .refl r

/-- No call takes a row away. -/
theorem process_rowLater {op : Op} {x : op.Ans} (h : process sha256 op s x t)
    (hr : r ∈ s.messages.rows) : ∃ r' ∈ t.messages.rows, RowLater r r' := by
  cases op with
  | claimPrefixMessages fullKey =>
      rw [process_claimPrefixMessages] at h
      split at h
      next =>
        obtain ⟨-, rfl⟩ := h
        exact ⟨r, hr, .refl r⟩
      next n t' hclaim =>
        obtain ⟨-, rfl⟩ := h
        refine ⟨_, ?_, rowLater_afterClaim s.contacts fullKey r⟩
        exact (claimPrefixMessages_rows hclaim).1 ▸ List.mem_map_of_mem hr
  | createMessage m =>
      obtain ⟨-, rfl⟩ := process_createMessage.mp h
      refine ⟨r, ?_, .refl r⟩
      cases hc : (create s.messages m).1 with
      | none => exact (create_of_none hc).symm ▸ hr
      | some id => exact (create_of_some hc).2.1 ▸ List.mem_append_left _ hr
  | addPath id p =>
      obtain rfl := process_addPath.mp h
      refine ⟨_, addPath_rows .. ▸ List.mem_map_of_mem hr, ?_⟩
      split
      · exact ⟨rfl, rfl, rfl, rfl, .refl, fun _ => rfl, .refl⟩
      · exact .refl r
  | incrementAckCount id =>
      obtain ⟨-, rfl⟩ := process_incrementAckCount.mp h
      refine ⟨_, incrementAckCount_rows .. ▸ List.mem_map_of_mem hr, ?_⟩
      split
      · exact ⟨rfl, rfl, rfl, rfl, .refl, fun _ => rfl, .refl⟩
      · exact .refl r
  | _ => exact ⟨r, process_messages h rfl ▸ hr, .refl r⟩

/-- **Rows stay**: whatever the tasks of the process do, every stored row has a later one. -/
theorem Others.row (h : Others sha256 s t) (hr : r ∈ s.messages.rows) :
    ∃ r' ∈ t.messages.rows, RowLater r r' := by
  induction h with
  | refl => exact ⟨r, hr, .refl r⟩
  | tail _ step ih =>
      obtain ⟨r', hr', hlater⟩ := ih
      rcases step with ⟨op, x, hx⟩ | ⟨channels, rfl⟩
      · obtain ⟨r'', hr'', hnext⟩ := process_rowLater hx hr'
        exact ⟨r'', hr'', hlater.trans hnext⟩
      · exact ⟨r', hr', hlater⟩

theorem RunsAmong.others {α : Type} {p : Task α} {answers : List ((op : Op) × op.Ans)}
    {ending : Program.Ending α} (h : RunsAmong sha256 p s answers ending t) : Others sha256 s t :=
  Program.Among.others (fun _ => .refl) .trans (fun hx => .single (.inl ⟨_, _, hx⟩)) h

end Rows

/-! ### Direct messages -/

namespace ContactMessageEvent

/-- The timestamp that the message is stored with. -/
def timestamp (e : ContactMessageEvent) : Int := e.senderTimestamp.getD e.now

/-- The contact that a run takes the sender for; a placeholder is read back. -/
def Resolves (e : ContactMessageEvent) (answers : List ((op : Op) × op.Ans)) :
    Option Contact → Prop
  | some c => ⟨.getContactByKeyOrPrefix (lower e.sender), .contact c⟩ ∈ answers ∨
      ⟨.getContactByKey (lower e.sender), some c⟩ ∈ answers
  | none => lower e.sender = [] ∨ ⟨.getContactByKey (lower e.sender), none⟩ ∈ answers

/-- The key that names the author: the signer's in a post to a room, else the sender's. -/
def authorName (e : ContactMessageEvent) (contact : Option Contact) : Text :=
  match isSignedPost e contact, e.signature.bind nonEmpty with
  | true, some signer => lower signer
  | _, _ => lower e.sender

/-- The row is an incoming direct message of the sender with the text and the timestamp of the
event. -/
structure IsContent (e : ContactMessageEvent) (r : MessageRow) : Prop where
  type : r.type = .priv
  outgoing : r.outgoing = false
  text : r.text = e.text
  timestamp : r.senderTimestamp.getD 0 = e.timestamp
  conversationKey : StandsFor (lower e.sender) r.conversationKey

/-- The row is by the author of the event. -/
def IsAuthor (e : ContactMessageEvent) (contact : Option Contact) (r : MessageRow) : Prop :=
  StandsFor (e.authorName contact) (r.senderKey.getD [])

/-- The message of the event has a row. -/
def Kept (e : ContactMessageEvent) (contact : Option Contact) (s : App) : Prop :=
  ∃ r ∈ s.messages.rows, e.IsContent r ∧ e.IsAuthor contact r

/-- The sender resolved to a repeater. -/
def FromRepeater (e : ContactMessageEvent) (answers : List ((op : Op) × op.Ans)) : Prop :=
  ∃ c : Contact, c.type = contactTypeRepeater ∧
    ⟨.getContactByKeyOrPrefix (lower e.sender), .contact c⟩ ∈ answers

/-- The lookup by content, which does not compare the authors, met the row of another author. -/
def MetOther (e : ContactMessageEvent) (contact : Option Contact)
    (answers : List ((op : Op) × op.Ans)) : Prop :=
  ∃ (key : Text) (r : MessageRow), StandsFor (lower e.sender) key ∧ ¬ e.IsAuthor contact r ∧
    ⟨.getByContent .priv key e.text (some e.timestamp) (some false), some r⟩ ∈ answers

end ContactMessageEvent

section Direct

variable {sha256 : Bytes → Bytes} {e : ContactMessageEvent} {contact : Option Contact}
  {s t : App} {answers : List ((op : Op) × op.Ans)}

theorem ContactMessageEvent.MetOther.mono {answers' : List ((op : Op) × op.Ans)}
    (h : e.MetOther contact answers) (hsubset : answers ⊆ answers') :
    e.MetOther contact answers' := by
  obtain ⟨key, r, hkey, hother, hmem⟩ := h
  exact ⟨key, r, hkey, hother, hsubset hmem⟩

/-- A kept message stays kept. -/
theorem ContactMessageEvent.Kept.others (h : e.Kept contact s) (hothers : Others sha256 s t) :
    e.Kept contact t := by
  obtain ⟨r, hr, hcontent, hauthor⟩ := h
  obtain ⟨r', hr', hlater⟩ := hothers.row hr
  refine ⟨r', hr', ⟨hlater.type.trans hcontent.type, hlater.outgoing.trans hcontent.outgoing,
    hlater.text.trans hcontent.text, ?_, hcontent.conversationKey.trans hlater.conversationKey⟩,
    hauthor.trans hlater.senderKey⟩
  rw [hlater.senderTimestamp]
  exact hcontent.timestamp

/-- The entry of an incoming direct message. -/
theorem dedupKey_incomingDirect {r : MessageRow} {key text author : Text} {timestamp : Int}
    (h : r.dedupKey = some (.incomingDirect key text timestamp author)) :
    r.type = .priv ∧ r.outgoing = false ∧ r.conversationKey = key ∧ r.text = text ∧
      r.senderTimestamp.getD 0 = timestamp ∧ r.senderKey.getD [] = author := by
  unfold MessageRow.dedupKey at h
  split at h
  next => simp at h
  next htype =>
    split at h
    next => simp at h
    next hout =>
      simp only [Option.some.injEq, DedupKey.incomingDirect.injEq] at h
      obtain ⟨hkey, htext, htimestamp, hauthor⟩ := h
      exact ⟨htype, by simpa using hout, hkey, htext, htimestamp, hauthor⟩

/-- A row holds the content of a direct message. -/
structure DirectMessage.Files (d : DirectMessage) (r : MessageRow) : Prop where
  type : r.type = .priv
  outgoing : r.outgoing = false
  text : r.text = d.text
  timestamp : r.senderTimestamp.getD 0 = d.senderTimestamp
  conversationKey : r.conversationKey = d.conversationKey

/-- Storing by content ends at a row of the message's author, or at the row that the lookup met. -/
theorem storeByContent_files {d : DirectMessage} (hbest : d.bestEffortContentDedup = true)
    (hout : d.outgoing = false) {result : Option Nat}
    (h : RunsAmong sha256 (storeByContent d) s answers (.returned result) t) :
    ∃ u r, r ∈ u.messages.rows ∧ Others sha256 u t ∧ d.Files r ∧
      (r.senderKey.getD [] = (d.senderKey.map lower).getD [] ∨
        ⟨.getByContent .priv d.conversationKey d.text (some d.senderTimestamp) (some d.outgoing),
          some r⟩ ∈ answers) := by
  simp only [storeByContent, hbest, if_true, Program.await_bind] at h
  obtain ⟨u, found, u', rest, rfl, -, hx, htail⟩ := h.of_call
  obtain ⟨hfound, rfl⟩ := process_getByContent.mp hx
  cases found with
  | some existing =>
      obtain ⟨hexisting, hmatch, -⟩ := (getByContent_eq_some_iff _).mp hfound.symm
      obtain ⟨htype, hkey, htext, htimestamp, hdirection⟩ := MessageRow.matchesContent_iff.mp hmatch
      refine ⟨u', existing, hexisting, RunsAmong.others htail,
        ⟨htype, hdirection.symm.trans hout, htext, ?_, hkey⟩, .inr List.mem_cons_self⟩
      rw [htimestamp]
      rfl
  | none =>
      simp only [insertDirectMessage, Program.await_bind] at htail
      obtain ⟨v, created, v', rest', rfl, -, hcreate, hsettle⟩ := htail.of_call
      obtain ⟨-, rfl⟩ := process_createMessage.mp hcreate
      -- accepted or rejected, the table has a row with the entry that was asked for
      have hentry : d.newMessage.dedupKey = some (.incomingDirect d.conversationKey d.text
          d.senderTimestamp ((d.senderKey.map lower).getD [])) := by
        simp only [NewMessage.dedupKey, NewMessage.toRow, DirectMessage.newMessage,
          MessageRow.dedupKey, hout]
        rfl
      obtain ⟨r, hr⟩ := Option.isSome_iff_exists.mp
        (holder_isSome_create_self (t := v.messages) hentry)
      obtain ⟨hmem, hdedup⟩ := (Table.holder_eq_some_iff _).mp hr
      obtain ⟨htype, hdirection, hkey, htext, htimestamp, hauthor⟩ :=
        dedupKey_incomingDirect hdedup
      exact ⟨_, r, hmem, RunsAmong.others hsettle, ⟨htype, hdirection, htext, htimestamp, hkey⟩,
        .inl hauthor⟩

/-- The fallback ingest leaves a row by its author, or its lookup met another author's. -/
theorem ingestFallbackDirectMessage_kept {context : FallbackDirectMessageContext}
    {name key : Option Text} {result : Option Nat}
    (h : RunsAmong sha256 (ingestFallbackDirectMessage e context name key) s answers
      (.returned result) t)
    (hconversation : StandsFor (lower e.sender) context.conversationKey)
    (hauthor : StandsFor (e.authorName contact) ((key.map lower).getD [])) :
    e.Kept contact t ∨ e.MetOther contact answers := by
  unfold ingestFallbackDirectMessage storeDirectMessage store at h
  simp only [Bool.false_eq_true, if_false] at h
  obtain ⟨u, r, hr, hothers, hfiles, horigin⟩ := storeByContent_files rfl rfl h
  have hcontent : e.IsContent r := ⟨hfiles.type, hfiles.outgoing, hfiles.text, hfiles.timestamp,
    hfiles.conversationKey ▸ hconversation⟩
  by_cases hsame : e.IsAuthor contact r
  · have hkept : e.Kept contact u := ⟨r, hr, hcontent, hsame⟩
    exact .inl (hkept.others hothers)
  · rcases horigin with hown | hmet
    · refine absurd ?_ hsame
      rw [ContactMessageEvent.IsAuthor, hown]
      exact hauthor
    · exact .inr ⟨context.conversationKey, r, hconversation, hsame, hmet⟩

theorem like_lower (pattern text : Text) : like pattern (lower text) = like pattern text := by
  induction pattern generalizing text with
  | nil => cases text <;> rfl
  | cons p pattern ih =>
      have htails : (lower text).tails = text.tails.map lower := by
        induction text with
        | nil => rfl
        | cons c text ihtext => simpa [lower] using ihtext
      unfold like
      split
      · rw [htails, List.any_map]
        exact congrArg (List.any text.tails) (funext ih)
      · cases text with
        | nil => rfl
        | cons c text =>
            have hrest : like pattern (lower text) = like pattern text := ih text
            simp only [lower, List.map_cons] at hrest ⊢
            rw [hrest, lowerChar_idem]

/-- A key resolves to a contact that it stands for. -/
theorem standsFor_of_resolved {contacts : ContactTable} {key : Text} {c : Contact}
    (h : getByKeyOrPrefix contacts (lower key) = .contact c) :
    StandsFor (lower key) (lower c.publicKey) := by
  unfold getByKeyOrPrefix at h
  split at h
  next c' hexact =>
    cases h
    rw [getByKey_publicKey hexact, lower_idem, lower_idem]
    exact .refl
  next =>
    split at h
    next => cases h
    next c' hone =>
      cases h
      have hmem : c ∈ contacts.rows.filter fun c => like (lower (lower key) ++ ['%']) c.publicKey :=
        hone ▸ List.mem_singleton_self c
      have hlike := (List.mem_filter.mp hmem).2
      refine .single ?_
      rw [like_lower]
      simpa using hlike
    next => cases h

/-- The author of a post resolves to a key that the signer's stands for. -/
theorem resolveDirectMessageSenderMetadata_standsFor {signer : Text} {name key : Option Text}
    (h : RunsAmong sha256 (resolveDirectMessageSenderMetadata signer) s answers
      (.returned (some (name, key))) t) : StandsFor (lower signer) ((key.map lower).getD []) := by
  simp only [resolveDirectMessageSenderMetadata, Program.await_bind] at h
  obtain ⟨u, x, u', rest, rfl, -, hx, htail⟩ := h.of_call
  obtain ⟨hx, rfl⟩ := process_getContactByKeyOrPrefix.mp hx
  have hunresolved : (name, key) = (none, nonEmpty (lower signer)) →
      StandsFor (lower signer) ((key.map lower).getD []) := by
    intro heq
    obtain ⟨-, rfl⟩ := Prod.mk.inj heq
    rw [nonEmpty_lower_getD]
    exact .refl
  cases x with
  | contact c =>
      obtain ⟨v, claimed, v', rest', rfl, -, -, hend⟩ := htail.of_call
      cases claimed with
      | none => cases hend.of_pure.1
      | some n =>
          obtain ⟨-, rfl⟩ := Prod.mk.inj (Option.some.inj hend.of_pure.1)
          simpa using standsFor_of_resolved hx.symm
  | unknown => exact hunresolved (Option.some.inj htail.of_pure.1)
  | ambiguous => exact hunresolved (Option.some.inj htail.of_pure.1)

/-- The placeholder that a run reads back is what it resolves the sender to. -/
theorem createPlaceholder_resolves {placeholder : Option Contact}
    (h : RunsAmong sha256 (createPlaceholder (lower e.sender) e.now) s answers
      (.returned placeholder) t) : e.Resolves answers placeholder := by
  unfold createPlaceholder at h
  split at h
  next hempty =>
    obtain ⟨rfl, -, -⟩ := h.of_pure
    exact .inl hempty
  next =>
    simp only [Program.await_bind] at h
    obtain ⟨u, x, u', rest, rfl, -, -, htail⟩ := h.of_call
    obtain ⟨v, y, v', rest', rfl, -, -, hend⟩ := htail.of_call
    obtain ⟨rfl, -, -⟩ := hend.of_pure
    cases placeholder with
    | none => exact .inr (by simp)
    | some c => exact .inr (by simp)

theorem ContactMessageEvent.Resolves.mono {answers' : List ((op : Op) × op.Ans)}
    (h : e.Resolves answers contact) (hsubset : answers ⊆ answers') :
    e.Resolves answers' contact := by
  cases contact with
  | none => exact h.imp_right (hsubset ·)
  | some c => exact h.imp (hsubset ·) (hsubset ·)

/-- A resolved context names the conversation and the author of an unsigned message by keys that
the sender stands for; only a repeater's messages are skipped. -/
theorem resolveFallbackDirectMessageContext_resolves {context : FallbackDirectMessageContext}
    (h : RunsAmong sha256 (resolveFallbackDirectMessageContext e.sender e.now) s answers
      (.returned (some context)) t) :
    e.Resolves answers context.contact ∧
      StandsFor (lower e.sender) context.conversationKey ∧
      StandsFor (lower e.sender) ((context.senderKey.map lower).getD []) ∧
      (context.skipStorage = true → e.FromRepeater answers) := by
  simp only [resolveFallbackDirectMessageContext, Program.await_bind] at h
  obtain ⟨u, x, u', rest, rfl, -, hx, htail⟩ := h.of_call
  obtain ⟨hresolved, rfl⟩ := process_getContactByKeyOrPrefix.mp hx
  cases x with
  | contact c =>
      have hkey := standsFor_of_resolved hresolved.symm
      obtain ⟨v, claimed, v', rest', rfl, -, -, hend⟩ := htail.of_call
      cases claimed with
      | none => cases hend.of_pure.1
      | some n =>
          obtain rfl := Option.some.inj hend.of_pure.1
          refine ⟨.inl List.mem_cons_self, hkey, by simpa using hkey, fun hskip => ?_⟩
          exact ⟨c, of_decide_eq_true hskip, List.mem_cons_self⟩
  | unknown | ambiguous =>
      obtain ⟨placeholder, v, first, rest', rfl, hplaceholder, hend⟩ := htail.of_bind
      obtain rfl := Option.some.inj hend.of_pure.1
      refine ⟨(createPlaceholder_resolves hplaceholder).mono ?_, .refl, ?_, fun hskip => ?_⟩
      · exact fun _ hmem => List.mem_cons_of_mem _ (List.mem_append_left _ hmem)
      · rw [nonEmpty_lower_getD]
        exact .refl
      · cases hskip

/-- Storing in a resolved conversation leaves a row by the author, or meets another author's. -/
theorem storeContactMessage_kept {context : FallbackDirectMessageContext} {stored : Option Nat}
    (h : RunsAmong sha256 (storeContactMessage e context) s answers (.returned (some stored)) t)
    (hconversation : StandsFor (lower e.sender) context.conversationKey)
    (hsender : StandsFor (lower e.sender) ((context.senderKey.map lower).getD [])) :
    e.Kept context.contact t ∨ e.MetOther context.contact answers := by
  unfold storeContactMessage at h
  split at h
  next signer hsigned hsigner =>
    obtain ⟨author, u, first, rest, rfl, hauthor, htail⟩ := h.of_bind
    cases author with
    | none => cases htail.of_pure.1
    | some author =>
        obtain ⟨name, key⟩ := author
        obtain ⟨result, v, body, last, rfl, hbody, hend⟩ := htail.of_bind
        obtain ⟨-, rfl, rfl⟩ := hend.of_pure
        have hname : e.authorName context.contact = lower signer := by
          simp only [ContactMessageEvent.authorName, hsigned, hsigner]
        refine (ingestFallbackDirectMessage_kept hbody hconversation ?_).imp_right fun hmet => ?_
        · exact hname ▸ resolveDirectMessageSenderMetadata_standsFor hauthor
        · exact hmet.mono fun _ hmem =>
            List.mem_append_right _ (List.mem_append_left _ hmem)
  next hunsigned =>
    obtain ⟨result, v, body, last, rfl, hbody, hend⟩ := h.of_bind
    obtain ⟨-, rfl, rfl⟩ := hend.of_pure
    have hname : e.authorName context.contact = lower e.sender := by
      unfold ContactMessageEvent.authorName
      split
      next signer hsigned hsigner => exact absurd hsigner (hunsigned signer hsigned)
      next => rfl
    refine (ingestFallbackDirectMessage_kept hbody hconversation (hname ▸ hsender)).imp_right ?_
    exact fun hmet => hmet.mono (List.subset_append_left _ _)

/-- **A direct message is kept**: when `on_contact_message` returns, the table has its row, unless
the sender is a repeater or the lookup met the row of another author. -/
theorem onContactMessage_kept {stored : Option Nat} (hcli : e.txtType ≠ 1)
    (h : RunsAmong sha256 (onContactMessage e) s answers (.returned (some stored)) t) :
    e.FromRepeater answers ∨ ∃ contact, e.Resolves answers contact ∧
      (e.Kept contact t ∨ e.MetOther contact answers) := by
  rw [onContactMessage, if_neg hcli] at h
  obtain ⟨context, u, first, rest, rfl, hcontext, htail⟩ := h.of_bind
  cases context with
  | none => cases htail.of_pure.1
  | some context =>
      obtain ⟨hresolves, hconversation, hsender, hskipped⟩ :=
        resolveFallbackDirectMessageContext_resolves hcontext
      have hfirst : first ⊆ first ++ rest := List.subset_append_left _ _
      dsimp only at htail
      split at htail
      next hskip =>
        obtain ⟨c, hrepeater, hmem⟩ := hskipped hskip
        exact .inl ⟨c, hrepeater, hfirst hmem⟩
      next =>
        refine .inr ⟨context.contact, hresolves.mono hfirst, ?_⟩
        exact (storeContactMessage_kept htail hconversation hsender).imp_right fun hmet =>
          hmet.mono (List.subset_append_right _ _)

end Direct

/-! ### Channel messages -/

/-- The row is the message of the arguments. -/
structure FallbackChannelMessage.IsRow (d : FallbackChannelMessage) (r : MessageRow) : Prop where
  type : r.type = .chan
  conversationKey : r.conversationKey = upper d.conversationKey
  text : r.text = channelText d.senderName d.messageText
  timestamp : r.senderTimestamp.getD 0 = d.senderTimestamp

/-- The message has a row. -/
def FallbackChannelMessage.Kept (d : FallbackChannelMessage) (s : App) : Prop :=
  ∃ r ∈ s.messages.rows, d.IsRow r

section Channels

variable {sha256 : Bytes → Bytes} {d : FallbackChannelMessage} {s t : App}
  {answers : List ((op : Op) × op.Ans)}

theorem FallbackChannelMessage.Kept.others (h : d.Kept s) (hothers : Others sha256 s t) :
    d.Kept t := by
  obtain ⟨r, hr, hrow⟩ := h
  obtain ⟨r', hr', hlater⟩ := hothers.row hr
  refine ⟨r', hr', hlater.type.trans hrow.type,
    (hlater.channel hrow.type).trans hrow.conversationKey, hlater.text.trans hrow.text, ?_⟩
  rw [hlater.senderTimestamp]
  exact hrow.timestamp

/-- The entry of a channel message. -/
theorem dedupKey_channel {r : MessageRow} {key text : Text} {timestamp : Int}
    (h : r.dedupKey = some (.channel key text timestamp)) :
    r.type = .chan ∧ r.conversationKey = key ∧ r.text = text ∧
      r.senderTimestamp.getD 0 = timestamp := by
  unfold MessageRow.dedupKey at h
  split at h
  next htype =>
    simp only [Option.some.injEq, DedupKey.channel.injEq] at h
    exact ⟨htype, h⟩
  next =>
    split at h
    next => simp at h
    next => simp at h

/-- **A channel message is kept**: when `create_fallback_channel_message` returns, the table has
its row. -/
theorem createFallbackChannelMessage_kept {result : Option Nat}
    (h : RunsAmong sha256 (createFallbackChannelMessage d) s answers (.returned result) t) :
    d.Kept t := by
  unfold createFallbackChannelMessage storeChannelMessage at h
  obtain ⟨senderKey, u, first, rest, rfl, -, htail⟩ := h.of_bind
  simp only [Program.await_bind] at htail
  obtain ⟨v, created, v', rest', rfl, -, hcreate, hsettle⟩ := htail.of_call
  obtain ⟨-, rfl⟩ := process_createMessage.mp hcreate
  have hentry : (d.newMessage senderKey).dedupKey = some (.channel (upper d.conversationKey)
      (channelText d.senderName d.messageText) d.senderTimestamp) := rfl
  obtain ⟨r, hr⟩ := Option.isSome_iff_exists.mp
    (holder_isSome_create_self (t := v.messages) hentry)
  obtain ⟨hmem, hdedup⟩ := (Table.holder_eq_some_iff _).mp hr
  obtain ⟨htype, hkey, htext, htimestamp⟩ := dedupKey_channel hdedup
  have hkept : d.Kept { v with messages := (create v.messages (d.newMessage senderKey)).2 } :=
    ⟨r, hmem, htype, hkey, htext, htimestamp⟩
  exact hkept.others (RunsAmong.others hsettle)

end Channels

end RemoteTerm
