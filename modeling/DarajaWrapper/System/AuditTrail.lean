import DarajaWrapper.Repository.AuditLog

/-!
# Trails written by concurrent transactions

A payment's trail verifies when its appends happen one transaction at a time and each
transaction starts after the rows that it chains its own to. The invariant speaks of what
each open transaction sees: that trail is linked and strictly ordered, and one transaction
at most is adding to it.
-/

namespace DarajaWrapper

open PaymentAuditLog

variable {payment : UUID} {rows added : List PaymentAuditLog} {row : PaymentAuditLog}

theorem trail_append : trail payment (rows ++ added) = trail payment rows ++ trail payment added :=
  List.filter_append rows added

theorem trail_concat_of_ne (h : row.paymentId ≠ payment) :
    trail payment (rows ++ [row]) = trail payment rows := by
  simp [trail, h]

theorem trail_concat (h : row.paymentId = payment) :
    trail payment (rows ++ [row]) = trail payment rows ++ [row] := by
  simp [trail, h]

/-- The payment's rows form a chain in the order of `created_at`. -/
structure Sound (payment : UUID) (rows : List PaymentAuditLog) : Prop where
  linked : HashChain.Linked checksum expected none (trail payment rows)
  sorted : (trail payment rows).Pairwise (·.createdAt < ·.createdAt)

theorem Sound.of_trail_eq (h : Sound payment rows)
    (heq : trail payment added = trail payment rows) : Sound payment added := by
  constructor
  · rw [heq]
    exact h.linked
  · rw [heq]
    exact h.sorted

theorem Sound.concat (h : Sound payment rows) (hpayment : row.paymentId = payment)
    (hchecksum : row.checksum = row.expected ((trail payment rows).getLast?.map checksum))
    (hlater : ∀ r ∈ trail payment rows, r.createdAt < row.createdAt) :
    Sound payment (rows ++ [row]) := by
  constructor
  · rw [trail_concat hpayment, HashChain.linked_concat, Option.or_none]
    exact ⟨h.linked, hchecksum⟩
  · rw [trail_concat hpayment, List.pairwise_append]
    refine ⟨h.sorted, List.pairwise_singleton _ _, ?_⟩
    intro r hr q hq
    rw [List.mem_singleton.mp hq]
    exact hlater r hr

/-- What a SELECT of the latest row returns from a sound trail. -/
theorem Sound.latest_eq (h : Sound payment rows) {latest : Option PaymentAuditLog}
    (hlatest : IsLatest (trail payment rows) latest) : latest = (trail payment rows).getLast? := by
  cases latest with
  | none =>
    rw [IsLatest] at hlatest
    rw [hlatest]
    rfl
  | some row => exact (Rows.getLast?_eq_some h.sorted hlatest.1 hlatest.2).symm

theorem PaymentAuditLog.stored_eq_some {entry : PaymentAuditLog} (h : entry.stored = some row) :
    varchar 50 entry.eventType = some row.eventType ∧ row.paymentId = entry.paymentId ∧
      row.payloadJson = entry.payloadJson ∧ row.checksum = entry.checksum ∧
      row.createdAt = entry.createdAt := by
  simp only [stored, Option.bind_eq_bind, Option.bind_eq_some_iff] at h
  obtain ⟨eventType, heventType, actor, -, ip, -, request, -, h⟩ := h
  split_ifs at h
  obtain rfl := Option.some.inj h
  exact ⟨heventType, rfl, rfl, rfl, rfl⟩

namespace AuditTransaction

/-- The transaction adds to the payment's trail: it has done so, or is about to. -/
def Holds (tx : AuditTransaction) (payment : UUID) : Prop :=
  trail payment tx.rows ≠ [] ∨ ∃ append ∈ tx.pending, append.paymentId = payment

instance (tx : AuditTransaction) (payment : UUID) : Decidable (tx.Holds payment) :=
  inferInstanceAs (Decidable (_ ∨ _))

end AuditTransaction

namespace AuditStore

variable {uuidOf : String → Option UUID} {s s' : AuditStore} {tx tx' : AuditTransaction} {id : ℕ}
  {key : UUID} {now : ℚ} {event : AuditEvent} {latest : Option PaymentAuditLog}

theorem transaction_eq_some (h : s.transaction id = some tx) :
    tx ∈ s.transactions ∧ tx.id = id := Rows.mem_of_find? h

theorem mem_put {other : AuditTransaction} (h : other ∈ (s.put tx).transactions) :
    other = tx ∨ other ∈ s.transactions ∧ other.id ≠ tx.id := by
  rcases Rows.mem_update.mp h with ⟨-, -, -, heq⟩ | hother
  · exact Or.inl heq
  · exact Or.inr hother

theorem begin_eq_some (h : step uuidOf s (.begin id now) = some s') :
    s.transaction id = none ∧
      s' = { s with now := now, transactions := s.transactions ++ [⟨id, now, [], none⟩] } := by
  rw [step] at h
  split at h
  · rename_i hguard
    exact ⟨hguard.1, (Option.some.inj h).symm⟩
  · cases h

theorem select_eq_some (h : step uuidOf s (.select id event latest) = some s') :
    ∃ tx payment, s.transaction id = some tx ∧ uuidOf event.paymentId = some payment ∧
      IsLatest (trail payment (s.visible tx)) latest ∧
      s' = s.put { tx with pending := some ⟨event, payment, latest.map (·.checksum)⟩ } := by
  simp only [step, Option.bind_eq_bind, Option.bind_eq_some_iff] at h
  obtain ⟨tx, htx, payment, hpayment, h⟩ := h
  split at h
  · rename_i hguard
    exact ⟨tx, payment, htx, hpayment, hguard.2, (Option.some.inj h).symm⟩
  · cases h

theorem insert_eq_some (h : step uuidOf s (.insert id key) = some s') :
    ∃ tx append entry, s.transaction id = some tx ∧ tx.pending = some append ∧
      (append.event.entry key append.paymentId append.previous tx.startedAt).stored =
        some entry ∧
      s' = s.put { tx with rows := tx.rows ++ [entry], pending := none } := by
  simp only [step, Option.bind_eq_bind, Option.bind_eq_some_iff] at h
  obtain ⟨tx, htx, append, happend, entry, hentry, h⟩ := h
  split at h
  · exact ⟨tx, append, entry, htx, happend, hentry, (Option.some.inj h).symm⟩
  · cases h

theorem commit_eq_some (h : step uuidOf s (.commit id) = some s') :
    ∃ tx, s.transaction id = some tx ∧
      s' = { s with committed := s.committed ++ tx.rows,
                    transactions := s.transactions.filter fun other => other.id ≠ id } := by
  simp only [step, Option.bind_eq_bind, Option.bind_eq_some_iff] at h
  obtain ⟨tx, htx, h⟩ := h
  split at h
  · exact ⟨tx, htx, (Option.some.inj h).symm⟩
  · cases h

/-- What the SELECT of an `append` for this payment must find: the id as the database writes it,
an event type that the column does not cut, no other transaction that is adding to the trail, and
only rows older than its own transaction. -/
def Orderly (uuidOf : String → Option UUID) (payment : UUID) (s : AuditStore) : AuditAction → Prop
  | .select id event _ =>
    uuidOf event.paymentId = some payment →
      event.paymentId = payment.str ∧ storesWhole 50 event.eventType = true ∧
      ∀ tx ∈ s.transactions,
        if tx.id = id then ∀ row ∈ trail payment (s.visible tx), row.createdAt < tx.startedAt
        else ¬ tx.Holds payment
  | _ => True

instance (uuidOf : String → Option UUID) (payment : UUID) (s : AuditStore) :
    ∀ action, Decidable (Orderly uuidOf payment s action)
  | .begin _ _ => .isTrue trivial
  | .select _ _ _ => inferInstanceAs (Decidable (_ → _ ∧ _ ∧ _))
  | .insert _ _ => .isTrue trivial
  | .commit _ => .isTrue trivial

/-- Every open transaction sees a sound trail, and one at most adds to it. -/
structure Ordered (payment : UUID) (s : AuditStore) : Prop where
  committed : Sound payment s.committed
  visible : ∀ tx ∈ s.transactions, Sound payment (s.visible tx)
  alone : ∀ tx ∈ s.transactions, ∀ other ∈ s.transactions,
    tx.Holds payment → other.Holds payment → tx.id = other.id
  pending : ∀ tx ∈ s.transactions, ∀ append ∈ tx.pending, append.paymentId = payment →
    append.event.paymentId = payment.str ∧ storesWhole 50 append.event.eventType = true ∧
      append.previous = (trail payment (s.visible tx)).getLast?.map checksum ∧
      ∀ row ∈ trail payment (s.visible tx), row.createdAt < tx.startedAt

theorem ordered_empty : Ordered payment empty where
  committed := ⟨trivial, List.Pairwise.nil⟩
  visible := by
    intro tx htx
    cases htx
  alone := by
    intro tx htx
    cases htx
  pending := by
    intro tx htx
    cases htx

theorem Ordered.put (h : Ordered payment s)
    (hvisible : Sound payment (s.visible tx))
    (halone : tx.Holds payment → ∀ other ∈ s.transactions, other.id ≠ tx.id →
      ¬ other.Holds payment)
    (hpending : ∀ append ∈ tx.pending, append.paymentId = payment →
      append.event.paymentId = payment.str ∧ storesWhole 50 append.event.eventType = true ∧
        append.previous = (trail payment (s.visible tx)).getLast?.map checksum ∧
        ∀ row ∈ trail payment (s.visible tx), row.createdAt < tx.startedAt) :
    Ordered payment (s.put tx) where
  committed := h.committed
  visible := by
    intro other hother
    rcases mem_put hother with rfl | ⟨hmem, -⟩
    · exact hvisible
    · exact h.visible other hmem
  alone := by
    intro one hone other hother hholds hholds'
    rcases mem_put hone with rfl | ⟨hmem, hne⟩ <;> rcases mem_put hother with rfl | ⟨hmem', hne'⟩
    · rfl
    · exact absurd hholds' (halone hholds other hmem' hne')
    · exact absurd hholds (halone hholds' one hmem hne)
    · exact h.alone one hmem other hmem' hholds hholds'
  pending := by
    intro other hother
    rcases mem_put hother with rfl | ⟨hmem, -⟩
    · exact hpending
    · exact h.pending other hmem

theorem Ordered.begin (h : Ordered payment s) :
    Ordered payment
      { s with now := now, transactions := s.transactions ++ [⟨id, now, [], none⟩] } := by
  have hnew : ¬ AuditTransaction.Holds ⟨id, now, [], none⟩ payment := by
    simp [AuditTransaction.Holds, trail]
  constructor
  · exact h.committed
  · intro tx htx
    rcases List.mem_append.mp htx with hmem | hmem
    · exact h.visible tx hmem
    · rw [List.mem_singleton.mp hmem]
      apply h.committed.of_trail_eq
      rw [AuditStore.visible, List.append_nil]
  · intro tx htx other hother hholds hholds'
    rcases List.mem_append.mp htx with hmem | hmem
    · rcases List.mem_append.mp hother with hmem' | hmem'
      · exact h.alone tx hmem other hmem' hholds hholds'
      · rw [List.mem_singleton.mp hmem'] at hholds'
        exact absurd hholds' hnew
    · rw [List.mem_singleton.mp hmem] at hholds
      exact absurd hholds hnew
  · intro tx htx
    rcases List.mem_append.mp htx with hmem | hmem
    · exact h.pending tx hmem
    · rw [List.mem_singleton.mp hmem]
      intro append happend
      cases happend

theorem Ordered.select (h : Ordered payment s)
    (hok : Orderly uuidOf payment s (.select id event latest))
    (hstep : step uuidOf s (.select id event latest) = some s') : Ordered payment s' := by
  obtain ⟨tx, selected, hfind, huuid, hlatest, rfl⟩ := select_eq_some hstep
  obtain ⟨htx, hid⟩ := transaction_eq_some hfind
  apply h.put
  · exact h.visible tx htx
  · intro hholds other hother hne
    rcases hholds with hrows | ⟨append, happend, hpayment⟩
    · intro hother'
      exact hne (h.alone other hother tx htx hother' (Or.inl hrows))
    · obtain rfl := Option.some.inj happend
      have hfree := (hok (huuid.trans (congrArg some hpayment))).2.2 other hother
      rw [if_neg (hid ▸ hne)] at hfree
      exact hfree
  · intro append happend hpayment
    obtain rfl := Option.some.inj happend
    obtain rfl : selected = payment := hpayment
    obtain ⟨htext, hwhole, hothers⟩ := hok huuid
    have holder := hothers tx htx
    rw [if_pos hid] at holder
    refine ⟨htext, hwhole, ?_, holder⟩
    rw [(h.visible tx htx).latest_eq hlatest]
    rfl

theorem Ordered.sound_insert (h : Ordered payment s) {append : PendingAppend}
    (htx : tx ∈ s.transactions) (happend : tx.pending = some append)
    (hrow : (append.event.entry key append.paymentId append.previous tx.startedAt).stored =
      some row) : Sound payment (s.visible tx ++ [row]) := by
  obtain ⟨heventType, hpaymentId, hpayload, hchecksum, hcreatedAt⟩ := stored_eq_some hrow
  by_cases hpayment : append.paymentId = payment
  · obtain ⟨htext, hwhole, hprevious, hlater⟩ := h.pending tx htx append happend hpayment
    have hcut : row.eventType = append.event.eventType := eq_of_storesWhole hwhole heventType
    apply (h.visible tx htx).concat (hpaymentId.trans hpayment)
    · rw [← hprevious, hchecksum, expected, hcut, hpaymentId, hpayload]
      simp only [AuditEvent.entry, Option.getD_some]
      rw [htext, hpayment]
    · rw [hcreatedAt]
      exact hlater
  · apply (h.visible tx htx).of_trail_eq (trail_concat_of_ne ?_)
    rwa [hpaymentId]

theorem Ordered.insert (h : Ordered payment s)
    (hstep : step uuidOf s (.insert id key) = some s') : Ordered payment s' := by
  obtain ⟨tx, append, entry, hfind, happend, hentry, rfl⟩ := insert_eq_some hstep
  obtain ⟨htx, -⟩ := transaction_eq_some hfind
  apply h.put
  · rw [AuditStore.visible, ← List.append_assoc]
    exact h.sound_insert htx happend hentry
  · intro hholds other hother hne hother'
    refine hne (h.alone other hother tx htx hother' ?_)
    by_cases hpayment : append.paymentId = payment
    · exact Or.inr ⟨append, happend, hpayment⟩
    · have hrow : entry.paymentId ≠ payment := by rwa [(stored_eq_some hentry).2.1]
      rcases hholds with hrows | ⟨_, hnone, -⟩
      · rw [trail_concat_of_ne hrow] at hrows
        exact Or.inl hrows
      · cases hnone
  · intro append hnone
    cases hnone

/-- What a transaction sees of the trail when another one has committed. -/
theorem Ordered.trail_visible_commit (h : Ordered payment s) (htx : tx ∈ s.transactions)
    (htx' : tx' ∈ s.transactions) (hne : tx'.id ≠ tx.id) :
    tx'.Holds payment ∧ trail payment (s.committed ++ tx.rows ++ tx'.rows) =
      trail payment (s.visible tx') ∨
    ¬ tx'.Holds payment ∧ trail payment (s.committed ++ tx.rows ++ tx'.rows) =
      trail payment (s.visible tx) := by
  by_cases hholds : tx'.Holds payment
  · left
    refine ⟨hholds, ?_⟩
    have hrows : trail payment tx.rows = [] := by
      by_contra hrows
      exact hne (h.alone tx' htx' tx htx hholds (Or.inl hrows))
    rw [trail_append, trail_append, hrows, List.append_nil, AuditStore.visible, trail_append]
  · right
    refine ⟨hholds, ?_⟩
    have hrows : trail payment tx'.rows = [] := by
      by_contra hrows
      exact hholds (Or.inl hrows)
    rw [trail_append, hrows, List.append_nil, AuditStore.visible]

theorem Ordered.commit (h : Ordered payment s) (hstep : step uuidOf s (.commit id) = some s') :
    Ordered payment s' := by
  obtain ⟨tx, hfind, rfl⟩ := commit_eq_some hstep
  obtain ⟨htx, hid⟩ := transaction_eq_some hfind
  have hother : ∀ other ∈ s.transactions.filter (fun other => other.id ≠ id),
      other ∈ s.transactions ∧ other.id ≠ tx.id := by
    intro other hmem
    have hfilter := List.mem_filter.mp hmem
    rw [hid]
    exact ⟨hfilter.1, of_decide_eq_true hfilter.2⟩
  constructor
  · exact h.visible tx htx
  · intro other hmem
    obtain ⟨hopen, hne⟩ := hother other hmem
    rcases h.trail_visible_commit htx hopen hne with ⟨-, htrail⟩ | ⟨-, htrail⟩
    · exact (h.visible other hopen).of_trail_eq htrail
    · exact (h.visible tx htx).of_trail_eq htrail
  · intro one hone other hmem
    exact h.alone one (hother one hone).1 other (hother other hmem).1
  · intro other hmem append happend hpayment
    obtain ⟨hopen, hne⟩ := hother other hmem
    rcases h.trail_visible_commit htx hopen hne with ⟨-, htrail⟩ | ⟨hfree, -⟩
    · rw [AuditStore.visible, htrail]
      exact h.pending other hopen append happend hpayment
    · exact absurd (Or.inr ⟨append, happend, hpayment⟩) hfree

theorem Ordered.step {action : AuditAction} (h : Ordered payment s)
    (hok : Orderly uuidOf payment s action) (hstep : step uuidOf s action = some s') :
    Ordered payment s' := by
  cases action with
  | begin id now =>
    obtain ⟨-, rfl⟩ := begin_eq_some hstep
    exact h.begin
  | select id event latest => exact h.select hok hstep
  | insert id key => exact h.insert hstep
  | commit id => exact h.commit hstep

/-- The trail is read back in one order, and verifies. -/
theorem Ordered.verifyChain_eq_true (h : Ordered payment s) {entries : List PaymentAuditLog}
    (hentries : s.IsHistory payment entries) : verifyChain entries = true := by
  have horder : entries = trail payment s.committed :=
    Rows.eq_of_perm_of_sorted h.committed.sorted hentries.1 hentries.2
  rw [horder, verifyChain, verifyFrom_iff]
  exact h.committed.linked

/-- A trail that is written one transaction at a time verifies. -/
theorem honest_trail_verifies (uuidOf : String → Option UUID) (payment : UUID)
    {actions : List AuditAction} {s : AuditStore} {entries : List PaymentAuditLog}
    (hok : Machine.Meets (step uuidOf) (Orderly uuidOf payment) empty actions)
    (hrun : Machine.run (step uuidOf) empty actions = some s)
    (hentries : s.IsHistory payment entries) : verifyChain entries = true := by
  have hordered : Ordered payment s :=
    Machine.run_invariant_of_meets ordered_empty (fun _ _ _ _ h hok hstep => h.step hok hstep)
      hok hrun
  exact hordered.verifyChain_eq_true hentries

def sampleUuidOf (text : String) : Option UUID := if text = UUID.str 7 then some 7 else none

def sampleEvent (eventType : String) : AuditEvent :=
  { paymentId := UUID.str 7, eventType := eventType, actor := "api_user",
    payloadJson := "\x7b\x7d", ipAddress := none, requestId := none }

def sampleActions : List AuditAction :=
  [.begin 1 1, .select 1 (sampleEvent "INITIATED") none, .insert 1 1, .commit 1,
    .begin 2 2, .select 2 (sampleEvent "DARAJA_ACCEPTED") sampleEntries.head?, .insert 2 2,
    .commit 2]

theorem honest_trail_verifies_sample : verifyChain sampleEntries = true := by
  have hok : Machine.Meets (step sampleUuidOf) (Orderly sampleUuidOf 7) empty sampleActions := by
    decide +kernel
  have hrun : Machine.run (step sampleUuidOf) empty sampleActions =
      some ⟨2, sampleEntries, []⟩ := by
    decide +kernel
  exact honest_trail_verifies sampleUuidOf 7 hok hrun (by decide +kernel)

/-- The same two rows when one transaction writes both. -/
def sampleTwins : List PaymentAuditLog :=
  sampleEntries.map fun entry => { entry with createdAt := 1 }

/-- Two appends in one transaction have one `created_at`, so the history can be read the other way
round, and does not verify. -/
theorem twin_appends_fail_to_verify :
    ∃ s, Machine.run (step sampleUuidOf) empty
        [.begin 1 1, .select 1 (sampleEvent "INITIATED") none, .insert 1 1,
          .select 1 (sampleEvent "DARAJA_ACCEPTED") sampleTwins.head?, .insert 1 2, .commit 1] =
          some s ∧
      s.transactions = [] ∧ s.IsHistory 7 sampleTwins.reverse ∧
      verifyChain sampleTwins.reverse = false :=
  ⟨⟨1, sampleTwins, []⟩, by decide +kernel⟩

end AuditStore

end DarajaWrapper
