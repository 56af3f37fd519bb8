import DarajaWrapper.Library.HashChain
import DarajaWrapper.Models.Payment
import DarajaWrapper.Python.Hashlib

/-!
# The audit log

Each row of a payment's log stores a checksum of its event and of the checksum
before it. The text that is hashed joins four columns with a bar; the last one
is empty for the first event and 64 hexadecimal digits for every other.
-/

namespace DarajaWrapper

open Python

def UUID.str (u : UUID) : String :=
  let digits := hex 32 u.toNat
  String.ofList (digits.take 8 ++ '-' :: (digits.drop 8).take 4 ++ '-' :: (digits.drop 12).take 4 ++
    '-' :: (digits.drop 16).take 4 ++ '-' :: digits.drop 20)

structure PaymentAuditLog where
  id : UUID
  paymentId : UUID
  eventType : String
  actor : String
  payloadJson : Option String
  ipAddress : Option String
  requestId : Option String
  checksum : String
  previousChecksum : Option String
  createdAt : ℚ
  deriving DecidableEq

namespace PaymentAuditLog

/-- The text that `compute_checksum` hashes. -/
def checksumData (paymentId eventType payloadJson : String) (previousChecksum : Option String) :
    String :=
  paymentId ++ "|" ++ eventType ++ "|" ++ payloadJson ++ "|" ++ previousChecksum.getD ""

def computeChecksum (paymentId eventType payloadJson : String)
    (previousChecksum : Option String) : String :=
  sha256Hexdigest (checksumData paymentId eventType payloadJson previousChecksum)

/-- The text that is hashed to verify a row behind this checksum. -/
def expectedData (entry : PaymentAuditLog) (previous : Option String) : String :=
  checksumData entry.paymentId.str entry.eventType (entry.payloadJson.getD "") previous

/-- What the checksum of a row behind this checksum must be. -/
def expected (entry : PaymentAuditLog) (previous : Option String) : String :=
  computeChecksum entry.paymentId.str entry.eventType (entry.payloadJson.getD "") previous

/-- The loop of `verify_chain_intergrity`. -/
def verifyFrom : Option String → List PaymentAuditLog → Bool
  | _, [] => true
  | previous, entry :: rest =>
    if entry.checksum ≠ entry.expected previous then false
    else verifyFrom (some entry.checksum) rest

/-- `verify_chain_intergrity` on the history that it has fetched. -/
def verifyChain (entries : List PaymentAuditLog) : Bool := verifyFrom none entries

variable {entries others : List PaymentAuditLog} {entry entry' : PaymentAuditLog}
  {previous previous' : Option String}

theorem expected_eq (entry : PaymentAuditLog) (previous : Option String) :
    entry.expected previous = sha256Hexdigest (entry.expectedData previous) := rfl

theorem verifyFrom_iff :
    verifyFrom previous entries = true ↔
      HashChain.Linked checksum expected previous entries := by
  induction entries generalizing previous with
  | nil => simp [verifyFrom, HashChain.Linked]
  | cons entry rest ih =>
    rw [verifyFrom, HashChain.Linked, ← ih]
    by_cases h : entry.checksum = entry.expected previous
    · simp [h]
    · simp [h]

/-- A checksum as `compute_checksum` makes it, or none. -/
def IsLink (previous : Option String) : Prop :=
  ∀ checksum, previous = some checksum → ∃ data, checksum = sha256Hexdigest data

theorem bar_not_mem_digest (data : String) : '|' ∉ (sha256Hexdigest data).toList := by
  intro h
  have hhex := mem_hexDigits_of_mem_sha256Hexdigest h
  revert hhex
  decide

theorem bar_ne_digest {xs ys : List Char} (data : String) :
    xs ++ ['|'] ≠ ys ++ (sha256Hexdigest data).toList := by
  intro heq
  have hlast := congrArg List.getLast? heq
  have hne : (sha256Hexdigest data).toList ≠ [] := by
    apply List.ne_nil_of_length_pos
    rw [length_sha256Hexdigest]
    decide
  rw [List.getLast?_append, List.getLast?_append, List.getLast?_eq_some_getLast hne] at hlast
  simp only [List.getLast?_singleton, Option.some_or, Option.some.injEq] at hlast
  exact bar_not_mem_digest data (hlast ▸ List.getLast_mem hne)

theorem expectedData_toList (entry : PaymentAuditLog) :
    ∃ event, ∀ previous,
      (entry.expectedData previous).toList = (event ++ ['|']) ++ (previous.getD "").toList := by
  refine ⟨(entry.paymentId.str ++ "|" ++ entry.eventType ++ "|" ++
    entry.payloadJson.getD "").toList, fun previous => ?_⟩
  rw [expectedData, checksumData, String.toList_append, String.toList_append]
  rfl

theorem eq_of_expectedData_eq (h : IsLink previous) (h' : IsLink previous')
    (heq : entry.expectedData previous = entry'.expectedData previous') : previous = previous' := by
  obtain ⟨event, hdata⟩ := entry.expectedData_toList
  obtain ⟨event', hdata'⟩ := entry'.expectedData_toList
  have hchars := congrArg String.toList heq
  rw [hdata, hdata'] at hchars
  cases previous with
  | none =>
    cases previous' with
    | none => rfl
    | some checksum' =>
      obtain ⟨data', rfl⟩ := h' _ rfl
      rw [Option.getD_none, String.toList_empty, List.append_nil] at hchars
      exact absurd hchars (bar_ne_digest data')
  | some checksum =>
    obtain ⟨data, rfl⟩ := h _ rfl
    cases previous' with
    | none =>
      rw [Option.getD_none, String.toList_empty, List.append_nil] at hchars
      exact absurd hchars.symm (bar_ne_digest data)
    | some checksum' =>
      obtain ⟨data', rfl⟩ := h' _ rfl
      have hlength : (sha256Hexdigest data).toList.length =
          (sha256Hexdigest data').toList.length := by
        rw [length_sha256Hexdigest, length_sha256Hexdigest]
      have hend := List.append_inj_right' hchars hlength
      rw [Option.getD_some, Option.getD_some] at hend
      rw [String.toList_injective hend]

/-- The texts that rows of this list can be hashed from, behind nothing or behind each other. -/
def chainData (entries : List PaymentAuditLog) : List String :=
  entries.flatMap fun entry => (HashChain.links checksum entries).map entry.expectedData

/-- No two of these texts collide. SHA-256 cannot be injective on all strings, so this is asked of
the strings in question only. -/
def CollisionFree (texts : List String) : Prop :=
  ∀ x ∈ texts, ∀ y ∈ texts, sha256Hexdigest x = sha256Hexdigest y → x = y

instance (texts : List String) : Decidable (CollisionFree texts) := by
  unfold CollisionFree
  infer_instance

theorem collisionFree_pair {x y : String} (h : sha256Hexdigest x = sha256Hexdigest y → x = y) :
    CollisionFree [x, y] := by
  intro s hs t ht heq
  rcases List.mem_pair.mp hs with rfl | rfl <;> rcases List.mem_pair.mp ht with rfl | rfl
  · rfl
  · exact h heq
  · exact (h heq.symm).symm
  · rfl

theorem mem_chainData (hentry : entry ∈ entries)
    (hprevious : previous ∈ HashChain.links checksum entries) :
    entry.expectedData previous ∈ chainData entries :=
  List.mem_flatMap.mpr ⟨entry, hentry, List.mem_map_of_mem hprevious⟩

theorem isLink_of_mem_links (h : verifyChain entries = true)
    (hprevious : previous ∈ HashChain.links checksum entries) : IsLink previous := by
  intro c hc
  subst hc
  rcases List.mem_cons.mp hprevious with hnone | hsome
  · cases hnone
  · obtain ⟨e, he, hec⟩ := List.mem_map.mp hsome
    obtain ⟨i, hi⟩ := List.getElem?_of_mem he
    have hdigest := (verifyFrom_iff.mp h).digest_eq hi
    rw [expected_eq] at hdigest
    exact ⟨_, (Option.some.inj hec).symm.trans hdigest⟩

theorem pins_of_collisionFree (h : verifyChain entries = true)
    (hfree : CollisionFree (chainData entries)) : HashChain.Pins checksum expected entries := by
  intro e he e' he' p hp p' hp' heq
  have hdata : e.expectedData p = e'.expectedData p' :=
    hfree _ (mem_chainData he hp) _ (mem_chainData he' hp') heq
  exact eq_of_expectedData_eq (isLink_of_mem_links h hp) (isLink_of_mem_links h hp') hdata

/-- A verified list made of rows of a verified one is a prefix of it: rows cannot be left out,
reordered or repeated, except that the tail may be cut. -/
theorem prefix_of_verified (h : verifyChain entries = true)
    (hfree : CollisionFree (chainData entries)) (h' : verifyChain others = true)
    (hsub : others ⊆ entries) : others <+: entries :=
  (verifyFrom_iff.mp h).prefix_of_subset (pins_of_collisionFree h hfree) (verifyFrom_iff.mp h') hsub

def sampleEntry (id : UUID) (eventType checksum : String) (previous : Option String) :
    PaymentAuditLog :=
  { id := id, paymentId := 7, eventType := eventType, actor := "api_user",
    payloadJson := some "\x7b\x7d", ipAddress := none, requestId := none,
    checksum := checksum, previousChecksum := previous, createdAt := id.toNat }

def sampleEntries : List PaymentAuditLog :=
  let first := "97d8a276cdc7b252d9f1c7e5eabf1d2b94a4b54bc6638c0c906d060b730da7c5"
  let second := "1f72d92b812dd22bf2d3831e668f44cd04d6780702772b1ccad8c46039b1f7e1"
  [sampleEntry 1 "INITIATED" first none, sampleEntry 2 "DARAJA_ACCEPTED" second (some first)]

theorem prefix_of_verified_sample : sampleEntries.take 1 <+: sampleEntries :=
  prefix_of_verified (by decide +kernel) (by decide +kernel) (by decide +kernel)
    (List.take_subset 1 sampleEntries)

/-- The row with another event; every other column stays as it is. -/
def rewritten (entry : PaymentAuditLog) (eventType payloadJson : String) : PaymentAuditLog :=
  { entry with eventType := eventType, payloadJson := some payloadJson }

/-- The second event is the first one with a piece of its payload, up to a bar in it, moved to the
end of its type. -/
def BarMoves (eventType payloadJson eventType' payloadJson' : String) : Prop :=
  ∃ piece, eventType' = eventType ++ "|" ++ piece ∧ payloadJson = piece ++ "|" ++ payloadJson'

/-- A text with a bar in it is split at this bar, or at one before or behind it. -/
theorem append_bar_eq_iff {xs ys xs' ys' : List Char} :
    xs ++ '|' :: ys = xs' ++ '|' :: ys' ↔
      (xs = xs' ∧ ys = ys') ∨ (∃ zs, xs' = xs ++ '|' :: zs ∧ ys = zs ++ '|' :: ys') ∨
        ∃ zs, xs = xs' ++ '|' :: zs ∧ ys' = zs ++ '|' :: ys := by
  constructor
  · intro h
    rcases List.append_eq_append_iff.mp h with ⟨zs, hxs, hys⟩ | ⟨zs, hxs, hys⟩
    · cases zs with
      | nil => exact Or.inl ⟨by simpa using hxs.symm, (List.cons.inj hys).2⟩
      | cons z zs =>
        obtain ⟨rfl, htail⟩ := List.cons.inj hys
        exact Or.inr (Or.inl ⟨zs, hxs, htail⟩)
    · cases zs with
      | nil => exact Or.inl ⟨by simpa using hxs, (List.cons.inj hys).2.symm⟩
      | cons z zs =>
        obtain ⟨rfl, htail⟩ := List.cons.inj hys
        exact Or.inr (Or.inr ⟨zs, hxs, htail⟩)
  · rintro (⟨rfl, rfl⟩ | ⟨zs, rfl, rfl⟩ | ⟨zs, rfl, rfl⟩)
    · rfl
    · simp
    · simp

theorem barMoves_iff {eventType payloadJson eventType' payloadJson' : String} :
    BarMoves eventType payloadJson eventType' payloadJson' ↔
      ∃ zs, eventType'.toList = eventType.toList ++ '|' :: zs ∧
        payloadJson.toList = zs ++ '|' :: payloadJson'.toList := by
  constructor
  · rintro ⟨piece, rfl, rfl⟩
    exact ⟨piece.toList, by simp, by simp⟩
  · rintro ⟨zs, htype, hpayload⟩
    refine ⟨String.ofList zs, ?_, ?_⟩
    · apply String.toList_injective
      simpa using htype
    · apply String.toList_injective
      simpa using hpayload

theorem BarMoves.mem {eventType payloadJson eventType' payloadJson' : String}
    (h : BarMoves eventType payloadJson eventType' payloadJson') : '|' ∈ eventType'.toList := by
  obtain ⟨zs, htype, -⟩ := barMoves_iff.mp h
  rw [htype]
  exact List.mem_append_right _ List.mem_cons_self

/-- Two events of one row are hashed alike exactly when they are the same or differ by a moved
bar. -/
theorem expectedData_rewritten_eq_iff (eventType payloadJson : String) :
    (entry.rewritten eventType payloadJson).expectedData previous = entry.expectedData previous ↔
      (eventType = entry.eventType ∧ payloadJson = entry.payloadJson.getD "") ∨
        BarMoves entry.eventType (entry.payloadJson.getD "") eventType payloadJson ∨
        BarMoves eventType payloadJson entry.eventType (entry.payloadJson.getD "") := by
  have hjoined : (entry.rewritten eventType payloadJson).expectedData previous =
      entry.expectedData previous ↔
        eventType.toList ++ '|' :: payloadJson.toList =
          entry.eventType.toList ++ '|' :: (entry.payloadJson.getD "").toList := by
    -- what stands before and behind the two columns is the same
    rw [← String.toList_inj]
    refine Iff.trans ?_ (List.append_left_inj ('|' :: (previous.getD "").toList))
    simp [expectedData, checksumData, rewritten]
  rw [hjoined, append_bar_eq_iff, String.toList_inj, String.toList_inj, barMoves_iff, barMoves_iff]
  exact or_congr_right or_comm

/-- A rewritten event is found out unless it is the old one with a bar moved from one column to
the other. -/
theorem rewrite_detected_iff {i : ℕ} {eventType payloadJson : String}
    (h : verifyChain entries = true) (hi : entries[i]? = some entry)
    (hfree : CollisionFree
      [entry.expectedData (HashChain.previousAt checksum none entries i),
       (entry.rewritten eventType payloadJson).expectedData
        (HashChain.previousAt checksum none entries i)]) :
    verifyChain (entries.set i (entry.rewritten eventType payloadJson)) = false ↔
      ¬ (eventType = entry.eventType ∧ payloadJson = entry.payloadJson.getD "") ∧
        ¬ BarMoves entry.eventType (entry.payloadJson.getD "") eventType payloadJson ∧
        ¬ BarMoves eventType payloadJson entry.eventType (entry.payloadJson.getD "") := by
  have hlinked := verifyFrom_iff.mp h
  have hset := hlinked.set_iff (entry.rewritten eventType payloadJson) hi rfl
  rw [← verifyFrom_iff] at hset
  have hdigest : entry.checksum = _ := hlinked.digest_eq hi
  have hdata : (entry.rewritten eventType payloadJson).checksum =
      (entry.rewritten eventType payloadJson).expected
        (HashChain.previousAt checksum none entries i) ↔
      (entry.rewritten eventType payloadJson).expectedData
          (HashChain.previousAt checksum none entries i) =
        entry.expectedData (HashChain.previousAt checksum none entries i) := by
    change entry.checksum = _ ↔ _
    rw [hdigest, expected_eq, expected_eq]
    constructor
    · intro heq
      exact (hfree _ (by simp) _ (by simp) heq).symm
    · intro heq
      rw [heq]
  rw [hdata, expectedData_rewritten_eq_iff] at hset
  rw [← not_or, ← not_or, ← hset, verifyChain, Bool.not_eq_true]

/-- A failed payment whose reason has a bar in it. -/
def failedEntry : PaymentAuditLog :=
  { sampleEntry 1 "FAILED" "c746f105fb63cc76060bdf41d1fa44fb6564f6b611bc2b0d348293ca304e44a5" none
    with payloadJson := some "\x7b\"reason\": \"Insufficient funds|balance low\"\x7d" }

theorem verifyChain_failedEntry : verifyChain [failedEntry] = true := by decide +kernel

theorem rewrite_detected_sample :
    verifyChain ([failedEntry].set 0 (failedEntry.rewritten "COMPLETED" "\x7b\x7d")) = false := by
  refine (rewrite_detected_iff verifyChain_failedEntry rfl
    (collisionFree_pair (by decide +kernel))).mpr ⟨by decide, ?_, ?_⟩
  · intro hmoves
    exact absurd hmoves.mem (by decide)
  · intro hmoves
    exact absurd hmoves.mem (by decide)

/-- The reason of the failure is cut at its bar, and the first half is now part of the type. -/
theorem rewrite_undetected :
    ¬ ∀ (entries : List PaymentAuditLog) (i : ℕ) (entry : PaymentAuditLog)
      (eventType payloadJson : String), verifyChain entries = true → entries[i]? = some entry →
      CollisionFree [entry.expectedData (HashChain.previousAt checksum none entries i),
        (entry.rewritten eventType payloadJson).expectedData
          (HashChain.previousAt checksum none entries i)] →
      (eventType, some payloadJson) ≠ (entry.eventType, entry.payloadJson) →
      verifyChain (entries.set i (entry.rewritten eventType payloadJson)) = false := by
  intro h
  have hfalse := h [failedEntry] 0 failedEntry "FAILED|\x7b\"reason\": \"Insufficient funds"
    "balance low\"\x7d" verifyChain_failedEntry rfl
    (collisionFree_pair fun _ => by decide +kernel) (by decide)
  revert hfalse
  decide +kernel

end PaymentAuditLog

end DarajaWrapper
