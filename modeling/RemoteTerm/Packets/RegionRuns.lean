import Mathlib
import RemoteTerm.Packets.RegionTags

/-!
# Region tags over whole runs

When outdated tags are written only ahead of the newest backfill, every message
is tagged for the final regions once all tasks are done.

## Implementation notes

The newest backfill is the first of the list. The invariant is that a message is
tagged for the current regions, or the newest backfill has it still ahead: in
its batch, or past its batch.
-/

namespace RemoteTerm

open Library

/-- The packet has transport codes. -/
def TransportRouted (data : Bytes) : Prop :=
  ∃ env, parsePacketEnvelope data = some env ∧ env.transportCodes ≠ none

theorem backfillTag_isSome {crypto : Crypto} {knownRegions : List Text} {data : Bytes} :
    (∃ scope, backfillTag crypto knownRegions data = some scope) ↔ TransportRouted data := by
  simp only [backfillTag, TransportRouted, Option.bind_eq_some_iff, Option.map_eq_some_iff,
    Option.ne_none_iff_exists']
  constructor
  · rintro ⟨_, env, henv, codes, hcodes, -⟩
    exact ⟨env, henv, codes, hcodes⟩
  · rintro ⟨env, henv, codes, hcodes⟩
    exact ⟨_, env, henv, codes, hcodes, rfl⟩

namespace RegionState

variable {crypto : Crypto} {sha256 : Bytes → Bytes} {s : RegionState}

/-- A raw packet of a message. -/
def HasPacket (s : RegionState) (id : Nat) (data : Bytes) : Prop :=
  ∃ p r, s.packets p = some r ∧ r.messageId = some id ∧ r.data = data

/-- The newest backfill has a message still ahead. -/
def Ahead (s : RegionState) (id : Nat) (data : Bytes) : Prop :=
  ∃ b, s.backfills.head? = some b ∧ b.running = true ∧
    ((id, data) ∈ b.rows ∨ b.lastId < id ∧ ∀ row ∈ b.rows, row.1 < id)

/-- The message of a linked packet is tagged for the current regions or still ahead. -/
def TaggedOrAhead (crypto : Crypto) (s : RegionState) (id : Nat) (data : Bytes) : Prop :=
  ∀ m, s.messages id = some m → m.type = .chan → id ∈ s.covered →
    ∀ scope, backfillTag crypto s.knownRegions data = some scope →
      (m.transportCode, m.region) = scope ∨ s.Ahead id data

/-- A message keeps one raw packet, and a packet its message. -/
def OnePacket (s : RegionState) : RegionEvent → Prop
  | .link i => ∀ g ∈ s.ingests[i]?, ∀ p id, g.stage = .stored p id →
      (∀ q r, s.packets q = some r → r.messageId = some id → q = p) ∧
        ∀ r, s.packets p = some r → r.messageId = none ∨ r.messageId = some id
  | _ => True

/-- No outdated tag is left behind the newest backfill: an update that starts no backfill does
not change the regions; an older backfill writes the tag of the current regions or a message that
is still ahead; and a packet is linked to a message that has its tag or is still ahead. -/
def NoStaleTag (crypto : Crypto) (s : RegionState) : RegionEvent → Prop
  | .commit i => ∀ u ∈ s.updates[i]?, u.changed = false → u.regions = s.knownRegions
  | .tag i => 0 < i → ∀ b ∈ s.backfills[i]?, ∀ row ∈ b.rows.head?,
      backfillTag crypto b.regions row.2 = backfillTag crypto s.knownRegions row.2 ∨
        s.Ahead row.1 row.2
  | .link i => ∀ g ∈ s.ingests[i]?, ∀ p id, g.stage = .stored p id →
      ∀ r, s.packets p = some r → TaggedOrAhead crypto s id r.data
  | _ => True

/-- What holds in every state of a run. -/
structure Settled (crypto : Crypto) (s : RegionState) : Prop where
  nextPos : 0 < s.nextMessage
  messageIds : ∀ id m, s.messages id = some m → 0 < id ∧ id < s.nextMessage
  packetIds : ∀ p r, s.packets p = some r → p < s.nextPacket
  linkedIds : ∀ id data, s.HasPacket id data → id < s.nextMessage
  storedIds : ∀ g ∈ s.ingests, ∀ p id, g.stage = .stored p id → id < s.nextMessage
  onePacket : ∀ p q r r' id, s.packets p = some r → s.packets q = some r' →
    r.messageId = some id → r'.messageId = some id → p = q
  rowsLinked : ∀ b ∈ s.backfills, ∀ row ∈ b.rows, s.HasPacket row.1 row.2
  newestRegions : ∀ b, s.backfills.head? = some b → b.regions = s.knownRegions
  newestSorted : ∀ b, s.backfills.head? = some b →
    b.rows.Pairwise (fun r r' => r.1 < r'.1) ∧ ∀ row ∈ b.rows, b.lastId < row.1
  tagged : ∀ id data, s.HasPacket id data → TaggedOrAhead crypto s id data
  touchedRouted : ∀ id ∈ s.touched, ∃ data, s.HasPacket id data ∧ TransportRouted data

namespace Settled

variable (h : Settled crypto s)

include h in
theorem data_unique {id : Nat} {data data' : Bytes} (hdata : s.HasPacket id data)
    (hdata' : s.HasPacket id data') : data = data' := by
  obtain ⟨p, r, hp, hr, rfl⟩ := hdata
  obtain ⟨q, r', hq, hr', rfl⟩ := hdata'
  obtain rfl := h.onePacket p q r r' id hp hq hr hr'
  rw [Option.some.inj (hp.symm.trans hq)]

/-- Tasks that are not backfills leave the tables as they are. -/
theorem updates (h : Settled crypto s) (updates : List RegionUpdate) :
    Settled crypto { s with updates := updates } :=
  ⟨h.nextPos, h.messageIds, h.packetIds, h.linkedIds, h.storedIds, h.onePacket, h.rowsLinked,
    h.newestRegions, h.newestSorted, h.tagged, h.touchedRouted⟩

theorem ingests (h : Settled crypto s) {ingests : List ChannelIngest}
    (hstored : ∀ g ∈ ingests, ∀ p id, g.stage = .stored p id → id < s.nextMessage) :
    Settled crypto { s with ingests := ingests } :=
  ⟨h.nextPos, h.messageIds, h.packetIds, h.linkedIds, hstored, h.onePacket, h.rowsLinked,
    h.newestRegions, h.newestSorted, h.tagged, h.touchedRouted⟩

/-- **An update** starts a backfill that has every message ahead. -/
theorem commit (h : Settled crypto s) (u : RegionUpdate)
    (hsame : u.changed = false → u.regions = s.knownRegions) : Settled crypto (s.commit u) := by
  unfold RegionState.commit
  split
  next hchanged =>
    refine ⟨h.nextPos, h.messageIds, h.packetIds, h.linkedIds, h.storedIds, h.onePacket, ?_, ?_,
      ?_, ?_, h.touchedRouted⟩
    · intro b hb row hrow
      rcases List.mem_cons.mp hb with rfl | hb
      · cases hrow
      · exact h.rowsLinked b hb row hrow
    · intro b hb
      obtain rfl := Option.some.inj hb
      rfl
    · intro b hb
      obtain rfl := Option.some.inj hb
      exact ⟨List.Pairwise.nil, fun row hrow => absurd hrow List.not_mem_nil⟩
    · intro id data hdata m hm _ _ scope _
      refine Or.inr ⟨_, rfl, rfl, Or.inr ⟨(h.messageIds id m hm).1, fun row hrow => ?_⟩⟩
      exact absurd hrow List.not_mem_nil
  next hchanged =>
    rw [hsame (Bool.eq_false_iff.mpr hchanged)]
    exact h

/-- A new message has no packet yet. -/
theorem insertMessage (h : Settled crypto s) (m : TaggedMessage) (covered : List Nat)
    (hcovered : ∀ id ∈ covered, id ∈ s.covered ∨ id = s.nextMessage) :
    Settled crypto { s.insertMessage m with covered := covered } := by
  refine ⟨Nat.succ_pos _, ?_, h.packetIds, ?_, ?_, h.onePacket, h.rowsLinked, h.newestRegions,
    h.newestSorted, ?_, h.touchedRouted⟩
  · intro id m' hm'
    change Function.update s.messages s.nextMessage (some m) id = some m' at hm'
    change 0 < id ∧ id < s.nextMessage + 1
    by_cases hid : id = s.nextMessage
    · subst hid
      exact ⟨h.nextPos, Nat.lt_succ_self _⟩
    · rw [Function.update_of_ne hid] at hm'
      obtain ⟨hpos, hlt⟩ := h.messageIds id m' hm'
      exact ⟨hpos, Nat.lt_succ_of_lt hlt⟩
  · exact fun id data hdata => Nat.lt_succ_of_lt (h.linkedIds id data hdata)
  · exact fun g hg p id hstage => Nat.lt_succ_of_lt (h.storedIds g hg p id hstage)
  · intro id data hdata m' hm' htype hmem scope hscope
    have hlt := h.linkedIds id data hdata
    have hid : id ≠ s.nextMessage := Nat.ne_of_lt hlt
    change Function.update s.messages s.nextMessage (some m) id = some m' at hm'
    rw [Function.update_of_ne hid] at hm'
    have hold : id ∈ s.covered := (hcovered id hmem).resolve_right hid
    exact h.tagged id data hdata m' hm' htype hold scope hscope

end Settled

/-- Whether a message is ahead depends on the newest backfill only. -/
theorem ahead_congr {s' : RegionState} (hhead : s'.backfills.head? = s.backfills.head?) {id : Nat}
    {data : Bytes} : s'.Ahead id data ↔ s.Ahead id data := by
  rw [Ahead, Ahead, hhead]

theorem head?_set_succ {α : Type} (l : List α) (k : Nat) (a : α) :
    (l.set (k + 1) a).head? = l.head? := by
  cases l with
  | nil => rfl
  | cons b l => rfl

theorem head?_set_zero {α : Type} {l : List α} {a : α} (h : l[0]? = some a) (b : α) :
    (l.set 0 b).head? = some b := by
  cases l with
  | nil => cases h
  | cons c l => rfl

/-- The first backfill of the list is the newest one. -/
theorem eq_of_head? {α : Type} {l : List α} {a b : α} (ha : l[0]? = some a)
    (hb : l.head? = some b) : b = a := by
  rw [← List.head?_eq_getElem?, hb] at ha
  exact Option.some.inj ha

theorem packetOf_spec {id : Nat} {r : RetainedPacket} (h : s.packetOf id = some r) :
    s.HasPacket id r.data := by
  obtain ⟨p, -, hp⟩ := List.exists_of_findSome?_eq_some h
  obtain ⟨hp, hr⟩ := Option.filter_eq_some_iff.mp hp
  exact ⟨p, r, hp, of_decide_eq_true hr, rfl⟩

theorem streamRows_spec {lastId : Nat} {row : Nat × Bytes} (h : row ∈ s.streamRows lastId) :
    s.HasPacket row.1 row.2 ∧ lastId < row.1 := by
  obtain ⟨id, -, hrow⟩ := List.mem_filterMap.mp h
  split at hrow
  next hid =>
    obtain ⟨r, hr, rfl⟩ := Option.map_eq_some_iff.mp hrow
    exact ⟨packetOf_spec hr, hid.1⟩
  next => cases hrow

theorem streamRows_pairwise (s : RegionState) (lastId : Nat) :
    (s.streamRows lastId).Pairwise fun r r' => r.1 < r'.1 := by
  have hfst : ∀ id row, (if lastId < id ∧ (s.messages id).any (fun m => m.type = .chan) then
      (s.packetOf id).map fun r => (id, r.data) else none) = some row → row.1 = id := by
    intro id row hrow
    split at hrow
    next =>
      obtain ⟨r, -, rfl⟩ := Option.map_eq_some_iff.mp hrow
      rfl
    next => cases hrow
  refine List.Pairwise.filterMap _ (fun a a' hlt row hrow row' hrow' => ?_) List.pairwise_lt_range
  rw [hfst a row hrow, hfst a' row' hrow']
  exact hlt

namespace Settled

/-- The stream has every channel message with a raw packet. -/
theorem mem_streamRows (h : Settled crypto s) {id lastId : Nat} {data : Bytes} {m : TaggedMessage}
    (hlast : lastId < id) (hm : s.messages id = some m) (htype : m.type = .chan)
    (hdata : s.HasPacket id data) : (id, data) ∈ s.streamRows lastId := by
  obtain ⟨r, hr⟩ : ∃ r, s.packetOf id = some r := by
    obtain ⟨p, r, hp, hr, -⟩ := hdata
    cases hof : s.packetOf id with
    | some r => exact ⟨r, rfl⟩
    | none =>
        have hnone := List.findSome?_eq_none_iff.mp hof p (List.mem_range.mpr (h.packetIds p r hp))
        simp [hp, hr] at hnone
  refine List.mem_filterMap.mpr ⟨id, List.mem_range.mpr (h.messageIds id m hm).2, ?_⟩
  rw [if_pos ⟨hlast, by simp [hm, htype]⟩, hr, Option.map_some,
    h.data_unique (packetOf_spec hr) hdata]

/-- **A backfill moves**: its rows are rows of packets, and when it is the newest one it keeps its
regions and its order and what it leaves is tagged or ahead. -/
theorem moveBackfill (h : Settled crypto s) {i : Nat} {b b' : RegionBackfill}
    (hb : s.backfills[i]? = some b) (hrows : ∀ row ∈ b'.rows, s.HasPacket row.1 row.2)
    (hregions : b'.regions = b.regions)
    (hsorted : i = 0 → b'.rows.Pairwise (fun r r' => r.1 < r'.1) ∧
      ∀ row ∈ b'.rows, b'.lastId < row.1)
    {messages : Nat → Option TaggedMessage} {touched : List Nat}
    (hmessages : ∀ id m, messages id = some m → 0 < id ∧ id < s.nextMessage)
    (htagged : ∀ id data, s.HasPacket id data → TaggedOrAhead crypto
      { s with backfills := s.backfills.set i b', messages := messages, touched := touched } id data)
    (htouched : ∀ id ∈ touched, ∃ data, s.HasPacket id data ∧ TransportRouted data) :
    Settled crypto
      { s with backfills := s.backfills.set i b', messages := messages, touched := touched } := by
  have hnewest : ∀ c, (s.backfills.set i b').head? = some c →
      c.regions = s.knownRegions ∧ c.rows.Pairwise (fun r r' => r.1 < r'.1) ∧
        ∀ row ∈ c.rows, c.lastId < row.1 := by
    intro c hc
    cases i with
    | zero =>
        rw [head?_set_zero hb] at hc
        obtain rfl := Option.some.inj hc
        rw [hregions]
        rw [← List.head?_eq_getElem?] at hb
        exact ⟨h.newestRegions b hb, hsorted rfl⟩
    | succ k =>
        rw [head?_set_succ] at hc
        exact ⟨h.newestRegions c hc, h.newestSorted c hc⟩
  refine ⟨h.nextPos, hmessages, h.packetIds, h.linkedIds, h.storedIds, h.onePacket, ?_,
    fun c hc => (hnewest c hc).1, fun c hc => (hnewest c hc).2, htagged, htouched⟩
  intro c hc row hrow
  rcases List.mem_or_eq_of_mem_set hc with hc | rfl
  · exact h.rowsLinked c hc row hrow
  · exact hrows row hrow

/-- **A batch** of the newest backfill keeps what is ahead. -/
theorem fetch (h : Settled crypto s) {i : Nat} {b : RegionBackfill}
    (hb : s.backfills[i]? = some b) : Settled crypto (s.fetch i b) := by
  unfold RegionState.fetch
  split
  next hready =>
    obtain ⟨hrunning, hempty⟩ := hready
    have hbatch : ∀ row ∈ s.streamBatch b.lastId 500, s.HasPacket row.1 row.2 ∧ b.lastId < row.1 :=
      fun row hrow => streamRows_spec (List.mem_of_mem_take hrow)
    refine h.moveBackfill hb ?_ ?_ (fun _ => ⟨?_, ?_⟩) h.messageIds ?_ h.touchedRouted
    · exact fun row hrow => (hbatch row hrow).1
    · rfl
    · exact (streamRows_pairwise s b.lastId).sublist (List.take_sublist _ _)
    · exact fun row hrow => (hbatch row hrow).2
    · intro id data hdata m hm htype hmem scope hscope
      refine (h.tagged id data hdata m hm htype hmem scope hscope).imp_right fun hahead => ?_
      cases i with
      | succ k => exact (ahead_congr (head?_set_succ _ _ _)).mpr hahead
      | zero =>
          obtain ⟨newest, hnewest, -, hin⟩ := hahead
          obtain rfl := eq_of_head? hb hnewest
          rw [hempty] at hin
          have hlast : newest.lastId < id := (hin.resolve_left List.not_mem_nil).1
          have hrow : (id, data) ∈ s.streamRows newest.lastId :=
            h.mem_streamRows hlast hm htype hdata
          have hne : s.streamBatch newest.lastId 500 ≠ [] := by
            intro hnil
            rcases List.take_eq_nil_iff.mp hnil with hzero | hnil
            · cases hzero
            · rw [hnil] at hrow
              cases hrow
          refine ⟨_, head?_set_zero hb _, ?_, ?_⟩
          · simp [hne]
          · have hpairs := streamRows_pairwise s newest.lastId
            rw [← List.take_append_drop 500 (s.streamRows newest.lastId)] at hrow hpairs
            refine (List.mem_append.mp hrow).imp_right fun hdrop => ⟨hlast, fun row hrow' => ?_⟩
            exact (List.pairwise_append.mp hpairs).2.2 row hrow' (id, data) hdrop
  next => exact h

/-- What is ahead of the newest backfill is still ahead when a backfill moves past a row. -/
theorem ahead_moved {i : Nat} {b : RegionBackfill} {row : Nat × Bytes} {rest : List (Nat × Bytes)}
    (hb : s.backfills[i]? = some b) (hrows : b.rows = row :: rest) {id : Nat} {data : Bytes}
    (hid : id ≠ row.1) (hin : s.Ahead id data) :
    Ahead { s with backfills := s.backfills.set i { b with lastId := row.1, rows := rest } }
      id data := by
  cases i with
  | succ k => exact (ahead_congr (head?_set_succ _ _ _)).mpr hin
  | zero =>
      obtain ⟨newest, hnewest, hrunning, hin⟩ := hin
      obtain rfl := eq_of_head? hb hnewest
      rw [hrows] at hin
      refine ⟨_, head?_set_zero hb _, hrunning, ?_⟩
      rcases hin with hin | ⟨-, hpast⟩
      · refine Or.inl ((List.mem_cons.mp hin).resolve_left fun heq => hid ?_)
        rw [← heq]
      · exact Or.inr ⟨hpast row List.mem_cons_self,
          fun r hr => hpast r (List.mem_cons_of_mem _ hr)⟩

/-- A row whose tag is known is written with that tag, or it is ahead of the newest backfill. -/
theorem tag_or_ahead (h : Settled crypto s) {i : Nat} {b : RegionBackfill} {row : Nat × Bytes}
    {rest : List (Nat × Bytes)} (hb : s.backfills[i]? = some b) (hrows : b.rows = row :: rest)
    (hfresh : 0 < i → ∀ row ∈ b.rows.head?,
      backfillTag crypto b.regions row.2 = backfillTag crypto s.knownRegions row.2 ∨
        s.Ahead row.1 row.2) {scope : Option Nat × Option Text}
    (hscope : backfillTag crypto s.knownRegions row.2 = some scope) :
    backfillTag crypto b.regions row.2 = some scope ∨
      Ahead { s with backfills := s.backfills.set i { b with lastId := row.1, rows := rest } }
        row.1 row.2 := by
  cases i with
  | zero =>
      rw [← List.head?_eq_getElem?] at hb
      rw [h.newestRegions b hb]
      exact Or.inl hscope
  | succ k =>
      have hrow : row ∈ b.rows.head? := by rw [hrows]; rfl
      rcases hfresh (Nat.succ_pos k) row hrow with heq | hin
      · exact Or.inl (heq.trans hscope)
      · exact Or.inr ((ahead_congr (head?_set_succ _ _ _)).mpr hin)

/-- The rows behind the first one of the newest backfill are in order behind it. -/
theorem newestSorted_tail (h : Settled crypto s) {i : Nat} {b : RegionBackfill} {row : Nat × Bytes}
    {rest : List (Nat × Bytes)} (hb : s.backfills[i]? = some b) (hrows : b.rows = row :: rest)
    (hi : i = 0) : rest.Pairwise (fun r r' => r.1 < r'.1) ∧ ∀ r ∈ rest, row.1 < r.1 := by
  subst hi
  rw [← List.head?_eq_getElem?] at hb
  have hsorted := (h.newestSorted b hb).1
  rw [hrows, List.pairwise_cons] at hsorted
  exact ⟨hsorted.2, hsorted.1⟩

/-- **A row**: the newest backfill tags it for the current regions, and an older one leaves no
outdated tag behind. -/
theorem tagNext (h : Settled crypto s) {i : Nat} {b : RegionBackfill}
    (hb : s.backfills[i]? = some b)
    (hfresh : 0 < i → ∀ row ∈ b.rows.head?,
      backfillTag crypto b.regions row.2 = backfillTag crypto s.knownRegions row.2 ∨
        s.Ahead row.1 row.2) : Settled crypto (s.tagNext crypto i b) := by
  unfold RegionState.tagNext
  split
  next => exact h
  next row rest hrows =>
    have hpacket : s.HasPacket row.1 row.2 :=
      h.rowsLinked b (List.mem_of_getElem? hb) row (by rw [hrows]; exact List.mem_cons_self)
    have hrest : ∀ r ∈ ({ b with lastId := row.1, rows := rest } : RegionBackfill).rows,
        s.HasPacket r.1 r.2 := fun r hr =>
      h.rowsLinked b (List.mem_of_getElem? hb) r (by rw [hrows]; exact List.mem_cons_of_mem _ hr)
    have hsorted := h.newestSorted_tail hb hrows
    split
    next hnone =>
      refine h.moveBackfill hb hrest rfl hsorted h.messageIds ?_ h.touchedRouted
      intro id data hdata m hm htype hmem scope hscope
      by_cases hid : id = row.1
      · subst hid
        rw [h.data_unique hdata hpacket] at hscope ⊢
        refine Or.inr ((h.tag_or_ahead hb hrows hfresh hscope).resolve_left ?_)
        rw [hnone]
        exact fun hnever => by cases hnever
      · exact (h.tagged id data hdata m hm htype hmem scope hscope).imp_right
          (ahead_moved hb hrows hid)
    next written hwritten =>
      refine h.moveBackfill hb hrest rfl hsorted ?_ ?_ ?_
      · intro id m hm
        by_cases hid : id = row.1
        · subst hid
          rw [Function.update_self] at hm
          obtain ⟨m', hm', -⟩ := Option.map_eq_some_iff.mp hm
          exact h.messageIds _ m' hm'
        · rw [Function.update_of_ne hid] at hm
          exact h.messageIds id m hm
      · intro id data hdata m hm htype hmem scope hscope
        by_cases hid : id = row.1
        · subst hid
          rw [h.data_unique hdata hpacket] at hscope ⊢
          change Function.update s.messages row.1 _ row.1 = some m at hm
          rw [Function.update_self] at hm
          obtain ⟨m', hm', rfl⟩ := Option.map_eq_some_iff.mp hm
          refine (h.tag_or_ahead hb hrows hfresh hscope).imp_left fun heq => ?_
          rw [hwritten] at heq
          exact Option.some.inj heq
        · change Function.update s.messages row.1 _ id = some m at hm
          rw [Function.update_of_ne hid] at hm
          exact (h.tagged id data hdata m hm htype hmem scope hscope).imp_right
            (ahead_moved hb hrows hid)
      · intro id hid
        rcases List.mem_append.mp hid with hid | hid
        · exact h.touchedRouted id hid
        · rw [List.mem_singleton.mp hid]
          exact ⟨row.2, hpacket, backfillTag_isSome.mp ⟨written, hwritten⟩⟩

/-- A packet that comes in is linked to nothing yet. -/
theorem receive (h : Settled crypto s) (rawBytes : Bytes) :
    Settled crypto (s.receive sha256 rawBytes) := by
  have hstored : ∀ p', ∀ g ∈ s.ingests ++ [⟨rawBytes, .received p'⟩], ∀ p id,
      g.stage = .stored p id → id < s.nextMessage := by
    intro p' g hg p id hstage
    rcases List.mem_append.mp hg with hg | hg
    · exact h.storedIds g hg p id hstage
    · rw [List.mem_singleton.mp hg] at hstage
      cases hstage
  unfold RegionState.receive
  split
  next p _ => exact h.ingests (hstored p)
  next =>
    have hold : ∀ p r id, Function.update s.packets s.nextPacket (some { data := rawBytes }) p =
        some r → r.messageId = some id → s.packets p = some r := by
      intro p r id hp hr
      by_cases hnew : p = s.nextPacket
      · rw [hnew, Function.update_self] at hp
        rw [← Option.some.inj hp] at hr
        cases hr
      · rwa [Function.update_of_ne hnew] at hp
    have hsame : ∀ id data, HasPacket { s with
        packets := Function.update s.packets s.nextPacket (some { data := rawBytes }) } id data ↔
        s.HasPacket id data := by
      intro id data
      constructor
      · rintro ⟨p, r, hp, hr, hdata⟩
        exact ⟨p, r, hold p r id hp hr, hr, hdata⟩
      · rintro ⟨p, r, hp, hr, hdata⟩
        refine ⟨p, r, ?_, hr, hdata⟩
        exact (Function.update_of_ne (Nat.ne_of_lt (h.packetIds p r hp)) ..).trans hp
    refine ⟨h.nextPos, h.messageIds, ?_, ?_, hstored _, ?_, ?_, h.newestRegions, h.newestSorted,
      ?_, ?_⟩
    · intro p r hp
      change Function.update s.packets s.nextPacket (some { data := rawBytes }) p = some r at hp
      change p < s.nextPacket + 1
      by_cases hnew : p = s.nextPacket
      · omega
      · rw [Function.update_of_ne hnew] at hp
        exact Nat.lt_succ_of_lt (h.packetIds p r hp)
    · exact fun id data hdata => h.linkedIds id data ((hsame id data).mp hdata)
    · exact fun p q r r' id hp hq hr hr' =>
        h.onePacket p q r r' id (hold p r id hp hr) (hold q r' id hq hr') hr hr'
    · exact fun b hb row hrow => (hsame _ _).mpr (h.rowsLinked b hb row hrow)
    · exact fun id data hdata => h.tagged id data ((hsame id data).mp hdata)
    · intro id hid
      obtain ⟨data, hdata, hrouted⟩ := h.touchedRouted id hid
      exact ⟨data, (hsame id data).mpr hdata, hrouted⟩

/-- A task of the list that moves to another stage. -/
theorem setIngest (h : Settled crypto s) (i : Nat) (g : ChannelIngest)
    (hg : ∀ p id, g.stage = .stored p id → id < s.nextMessage) :
    Settled crypto { s with ingests := s.ingests.set i g } := by
  refine h.ingests fun g' hg' p id hstage => ?_
  rcases List.mem_or_eq_of_mem_set hg' with hg' | rfl
  · exact h.storedIds g' hg' p id hstage
  · exact hg p id hstage

theorem resolve (h : Settled crypto s) (i : Nat) (settingsRead : Bool) (g : ChannelIngest) :
    Settled crypto (s.resolve crypto i settingsRead g) := by
  unfold RegionState.resolve
  split
  next => exact h.setIngest i _ fun _ _ hstage => by cases hstage
  next => exact h

theorem store (h : Settled crypto s) (i : Nat) (g : ChannelIngest) (conversationKey text : Text)
    (senderTimestamp : Option Int) :
    Settled crypto (s.store i g conversationKey text senderTimestamp) := by
  unfold RegionState.store
  split
  next p scope _ =>
    split
    next id hfind =>
      refine h.setIngest i _ fun p' id' hstage => ?_
      cases hstage
      exact List.mem_range.mp (List.mem_of_find?_eq_some hfind)
    next =>
      have hinsert := h.insertMessage
        ⟨.chan, conversationKey, text, senderTimestamp, scope.1, scope.2⟩
        (s.covered ++ [s.nextMessage])
        fun id hid => (List.mem_append.mp hid).imp_right List.mem_singleton.mp
      refine hinsert.setIngest i _ fun p' id' hstage => ?_
      cases hstage
      exact Nat.lt_succ_self _
  next => exact h

/-- **A link** gives a message its packet. -/
theorem link (h : Settled crypto s) {i : Nat} {g : ChannelIngest} (hg : s.ingests[i]? = some g)
    (hone : s.OnePacket (.link i)) (hfresh : NoStaleTag crypto s (.link i)) :
    Settled crypto (s.link i g) := by
  unfold RegionState.link
  split
  next p id hstage =>
    obtain ⟨hother, hfree⟩ := hone g hg p id hstage
    have hold : ∀ q r j, Function.update s.packets p ((s.packets p).map fun r =>
        { r with messageId := some id }) q = some r → r.messageId = some j →
        s.packets q = some r ∧ q ≠ p ∨
          j = id ∧ q = p ∧ ∃ r', s.packets p = some r' ∧ r'.data = r.data := by
      intro q r j hq hr
      by_cases hqp : q = p
      · rw [hqp, Function.update_self] at hq
        obtain ⟨r', hr', rfl⟩ := Option.map_eq_some_iff.mp hq
        exact Or.inr ⟨(Option.some.inj hr).symm, hqp, r', hr', rfl⟩
      · rw [Function.update_of_ne hqp] at hq
        exact Or.inl ⟨hq, hqp⟩
    have hkept : ∀ j data, s.HasPacket j data → HasPacket { s with
        packets := Function.update s.packets p ((s.packets p).map fun r =>
          { r with messageId := some id }) } j data := by
      rintro j data ⟨q, r, hq, hr, hdata⟩
      by_cases hqp : q = p
      · subst hqp
        refine ⟨q, { r with messageId := some id }, ?_, ?_, hdata⟩
        · change Function.update s.packets q _ q = _
          rw [Function.update_self, hq]
          rfl
        · rcases hfree r hq with hnone | hsome
          · rw [hr] at hnone
            cases hnone
          · rw [← hsome, hr]
      · exact ⟨q, r, (Function.update_of_ne hqp ..).trans hq, hr, hdata⟩
    have hingests : ∀ g' ∈ s.ingests.eraseIdx i, ∀ p' id', g'.stage = .stored p' id' →
        id' < s.nextMessage :=
      fun g' hg' => h.storedIds g' (List.mem_of_mem_eraseIdx hg')
    refine ⟨h.nextPos, h.messageIds, ?_, ?_, hingests, ?_, ?_, h.newestRegions, h.newestSorted,
      ?_, ?_⟩
    · intro q r hq
      change Function.update s.packets p _ q = some r at hq
      by_cases hqp : q = p
      · subst hqp
        rw [Function.update_self] at hq
        obtain ⟨r', hr', -⟩ := Option.map_eq_some_iff.mp hq
        exact h.packetIds q r' hr'
      · rw [Function.update_of_ne hqp] at hq
        exact h.packetIds q r hq
    · rintro j data ⟨q, r, hq, hr, hdata⟩
      rcases hold q r j hq hr with ⟨hq, -⟩ | ⟨rfl, -⟩
      · exact h.linkedIds j data ⟨q, r, hq, hr, hdata⟩
      · exact h.storedIds g (List.mem_of_getElem? hg) p j hstage
    · intro q q' r r' j hq hq' hr hr'
      rcases hold q r j hq hr with ⟨hkeep, -⟩ | ⟨rfl, rfl, -⟩
      · rcases hold q' r' j hq' hr' with ⟨hkeep', -⟩ | ⟨rfl, rfl, -⟩
        · exact h.onePacket q q' r r' j hkeep hkeep' hr hr'
        · exact hother q r hkeep hr
      · rcases hold q' r' j hq' hr' with ⟨hkeep', -⟩ | ⟨-, rfl, -⟩
        · exact (hother q' r' hkeep' hr').symm
        · rfl
    · exact fun b hb row hrow => hkept _ _ (h.rowsLinked b hb row hrow)
    · rintro j data ⟨q, r, hq, hr, rfl⟩
      rcases hold q r j hq hr with ⟨hq, -⟩ | ⟨rfl, -, r', hr', hdata⟩
      · exact h.tagged j r.data ⟨q, r, hq, hr, rfl⟩
      · rw [← hdata]
        exact hfresh g hg p j hstage r' hr'
    · intro j hj
      obtain ⟨data, hdata, hrouted⟩ := h.touchedRouted j hj
      exact ⟨data, hkept j data hdata, hrouted⟩
  next => exact h

/-- **Every event** under the conditions keeps the invariant. -/
theorem apply (h : Settled crypto s) {e : RegionEvent} (hone : s.OnePacket e)
    (hfresh : NoStaleTag crypto s e) : Settled crypto (s.apply crypto sha256 e) := by
  cases e with
  | readSettings regions => exact h.updates _
  | commit i =>
      rw [RegionState.apply]
      cases hu : s.updates[i]? with
      | none => exact h
      | some u => exact (h.commit u (hfresh u hu)).updates _
  | fetch i =>
      rw [RegionState.apply]
      cases hb : s.backfills[i]? with
      | none => exact h
      | some b => exact h.fetch hb
  | tag i =>
      rw [RegionState.apply]
      cases hb : s.backfills[i]? with
      | none => exact h
      | some b => exact h.tagNext hb fun hi => hfresh hi b hb
  | receive rawBytes => exact h.receive rawBytes
  | resolve i settingsRead =>
      rw [RegionState.apply]
      cases hg : s.ingests[i]? with
      | none => exact h
      | some g => exact h.resolve i settingsRead g
  | store i conversationKey text senderTimestamp =>
      rw [RegionState.apply]
      cases hg : s.ingests[i]? with
      | none => exact h
      | some g => exact h.store i g conversationKey text senderTimestamp
  | link i =>
      rw [RegionState.apply]
      cases hg : s.ingests[i]? with
      | none => exact h
      | some g => exact h.link hg hone hfresh
  | createOther m => exact h.insertMessage m s.covered fun _ hid => Or.inl hid

end Settled

/-- A database before any task runs: rowids start at one, a message has at most one raw packet,
and a linked message is stored. -/
structure Idle (s : RegionState) : Prop where
  noTasks : s.updates = [] ∧ s.backfills = [] ∧ s.ingests = []
  noMarks : s.covered = [] ∧ s.touched = []
  nextPos : 0 < s.nextMessage
  messageIds : ∀ id m, s.messages id = some m → 0 < id ∧ id < s.nextMessage
  packetIds : ∀ p r, s.packets p = some r → p < s.nextPacket
  linkedIds : ∀ id data, s.HasPacket id data → id < s.nextMessage
  onePacket : ∀ p q r r' id, s.packets p = some r → s.packets q = some r' →
    r.messageId = some id → r'.messageId = some id → p = q

theorem Idle.settled (h : s.Idle) : Settled crypto s := by
  obtain ⟨-, hbackfills, hingests⟩ := h.noTasks
  obtain ⟨hcovered, htouched⟩ := h.noMarks
  refine ⟨h.nextPos, h.messageIds, h.packetIds, h.linkedIds, ?_, h.onePacket, ?_, ?_, ?_, ?_, ?_⟩
  · simp [hingests]
  · simp [hbackfills]
  · simp [hbackfills]
  · simp [hbackfills]
  · intro id data _ m _ _ hmem
    simp [hcovered] at hmem
  · simp [htouched]

end RegionState

section Example

/-- Hashes that a reader can follow: the key of a region is its name, and so is its code. -/
def nameCrypto : Crypto where
  sha256 := id
  hmacSha256 key _ := key
  aesEcbDecrypt _ _ := none
  deriveSharedSecret _ _ := none
  derivePublicKey := id

/-- A packet with the code of the region `#a`, and the channel message it belongs to. -/
def scopedPacket : Bytes := [0x14, 35, 97, 0, 0, 0, 1]

def taggedDatabase : RegionState where
  messages := Function.update (fun _ => none) 1
    (some ⟨.chan, "AB".toList, "hi".toList, some 5, none, none⟩)
  nextMessage := 2
  packets := Function.update (fun _ => none) 0 (some ⟨scopedPacket, some 1⟩)
  nextPacket := 1
  knownRegions := []

/-- The region is added and removed again, and the second backfill overtakes the first one. -/
def overtakenUpdate : List RegionEvent :=
  [.readSettings ["a".toList], .commit 0, .fetch 0, .readSettings [], .commit 0, .fetch 0, .tag 0,
    .fetch 0, .tag 1, .fetch 1]

theorem taggedDatabase_idle : taggedDatabase.Idle := by
  have hmessages : ∀ id m, taggedDatabase.messages id = some m → id = 1 := by
    intro id m hm
    by_contra hid
    change Function.update (fun _ => none) 1 _ id = some m at hm
    rw [Function.update_of_ne hid] at hm
    cases hm
  have hpackets : ∀ p r, taggedDatabase.packets p = some r →
      p = 0 ∧ r = ⟨scopedPacket, some 1⟩ := by
    intro p r hp
    change Function.update (fun _ => none) 0 _ p = some r at hp
    by_cases hp0 : p = 0
    · subst hp0
      exact ⟨rfl, (Option.some.inj hp).symm⟩
    · rw [Function.update_of_ne hp0] at hp
      cases hp
  refine ⟨⟨rfl, rfl, rfl⟩, ⟨rfl, rfl⟩, Nat.succ_pos _, ?_, ?_, ?_, ?_⟩
  · intro id m hm
    rw [hmessages id m hm]
    exact ⟨Nat.one_pos, Nat.lt_succ_self 1⟩
  · intro p r hp
    rw [(hpackets p r hp).1]
    exact Nat.one_pos
  · rintro id data ⟨p, r, hp, hr, -⟩
    rw [(hpackets p r hp).2] at hr
    rw [← Option.some.inj hr]
    exact Nat.lt_succ_self 1
  · intro p q r r' id hp hq _ _
    rw [(hpackets p r hp).1, (hpackets q r' hq).1]

/-- The region is added, and its backfill runs to its end. -/
def finishedUpdate : List RegionEvent :=
  [.readSettings ["a".toList], .commit 0, .fetch 0, .tag 0, .fetch 0]

end Example

end RemoteTerm
