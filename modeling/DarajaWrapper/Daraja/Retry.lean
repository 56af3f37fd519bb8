import DarajaWrapper.Daraja.Client

/-!
# The retry loop

`DarajaClient.post` as a whole: the circuit is checked once, and attempts follow each
other until one is decisive or none is left. The iterator swallows a transient
error and goes on; behind the last one it raises its own `RetryError`, so neither
of the two places that raise `DarajaTimeoutError` is ever reached.
-/

namespace DarajaWrapper

open Python

/-- A call of `post` that has ended, with the number of its HTTP requests. -/
structure PostRun where
  requests : ℕ
  client : DarajaClient
  result : Except CallError Json

/-- The attempts from number `k` on, counted from zero, when `left` more are allowed behind it.
`clock` is the time at which an attempt fails. -/
def retryLoop (settings : Settings) (clock : ℕ → ℚ) (replies : ℕ → AttemptReply) :
    ℕ → ℕ → DarajaClient → PostRun
  | k, left, c =>
    let sent := if (replies k).sent then 1 else 0
    match executeRequest settings (clock k) c (replies k) with
    | (c, .ok body) => ⟨sent, c.onSuccess, .ok body⟩
    | (c, .error (.daraja e)) => ⟨sent, c, .error (.daraja e)⟩
    | (c, .error .other) => ⟨sent, c, .error .other⟩
    | (c, .error _) =>
      let c := c.onFailure settings (clock k)
      match left with
      | 0 => ⟨sent, c, .error .retryError⟩
      | left + 1 =>
        let rest := retryLoop settings clock replies (k + 1) left c
        { rest with requests := sent + rest.requests }

/-- `DarajaClient.post` when `daraja_retry_attempts` is `attempts`; the check of the circuit is at
time `now`. -/
def post (settings : Settings) (attempts : ℕ) (now : ℚ) (clock : ℕ → ℚ)
    (replies : ℕ → AttemptReply) (c : DarajaClient) : PostRun :=
  match c.checkCircuit settings now with
  | .error e => ⟨0, c, .error (.daraja e)⟩
  | .ok c => retryLoop settings clock replies 0 (attempts - 1) c

variable {settings : Settings} {now : ℚ} {clock : ℕ → ℚ} {replies : ℕ → AttemptReply}
  {c : DarajaClient} {reply : AttemptReply} {k left attempts : ℕ} {result : Except CallError Json}

/-- With the attempts that the settings allow, each pass through the loop is an `attempt`. -/
theorem retryLoop_eq_attempt (h : k + left + 1 = settings.darajaRetryAttempts) :
    (retryLoop settings clock replies k left c).result =
      match attempt settings (clock k) (k + 1) c (replies k) with
      | (_, .returned body) => .ok body
      | (_, .raised e) => .error e
      | (c, .retry) => (retryLoop settings clock replies (k + 1) (left - 1) c).result := by
  rw [retryLoop, attempt]
  rcases executeRequest settings (clock k) c (replies k) with ⟨c', e | body⟩
  · cases left with
    | zero =>
      have hlast : ¬ k + 1 < settings.darajaRetryAttempts := by omega
      cases e <;> simp [hlast]
    | succ left =>
      have hmore : k + 1 < settings.darajaRetryAttempts := by omega
      cases e <;> simp [hmore]
  · rfl

theorem executeRequest_of_ambiguous (settings : Settings) (now : ℚ) (c : DarajaClient)
    (h : reply.ambiguous = true) :
    reply.sent = true ∧ ∃ c', executeRequest settings now c reply = (c', .error .timeout) ∨
      executeRequest settings now c reply = (c', .error .transport) := by
  cases reply with
  | authError e => cases h
  | tokenError => cases h
  | timeout => exact ⟨rfl, c, Or.inl rfl⟩
  | transportError => exact ⟨rfl, c, Or.inr rfl⟩
  | response status text json =>
    have h5 : 500 ≤ status := by simpa [AttemptReply.ambiguous] using h
    exact ⟨rfl, c.onFailure settings now, Or.inr (by simp [executeRequest, h5])⟩

theorem retryLoop_last (h : (replies k).ambiguous = true) :
    (retryLoop settings clock replies k 0 c).requests = 1 ∧
      (retryLoop settings clock replies k 0 c).result = .error .retryError := by
  obtain ⟨hsent, c', hexecute | hexecute⟩ := executeRequest_of_ambiguous settings (clock k) c h
  · rw [retryLoop, hexecute, hsent]
    exact ⟨rfl, rfl⟩
  · rw [retryLoop, hexecute, hsent]
    exact ⟨rfl, rfl⟩

theorem retryLoop_next (settings : Settings) (clock : ℕ → ℚ) (left : ℕ) (c : DarajaClient)
    (h : (replies k).ambiguous = true) :
    ∃ c', (retryLoop settings clock replies k (left + 1) c).requests =
        1 + (retryLoop settings clock replies (k + 1) left c').requests ∧
      (retryLoop settings clock replies k (left + 1) c).result =
        (retryLoop settings clock replies (k + 1) left c').result := by
  obtain ⟨hsent, c', hexecute | hexecute⟩ := executeRequest_of_ambiguous settings (clock k) c h
  · refine ⟨c'.onFailure settings (clock k), ?_⟩
    rw [retryLoop, hexecute, hsent]
    exact ⟨rfl, rfl⟩
  · refine ⟨c'.onFailure settings (clock k), ?_⟩
    rw [retryLoop, hexecute, hsent]
    exact ⟨rfl, rfl⟩

theorem retryLoop_exhausted (h : ∀ j, k ≤ j → j ≤ k + left → (replies j).ambiguous = true) :
    (retryLoop settings clock replies k left c).requests = left + 1 ∧
      (retryLoop settings clock replies k left c).result = .error .retryError := by
  induction left generalizing k c with
  | zero => exact retryLoop_last (h k le_rfl le_rfl)
  | succ left ih =>
    obtain ⟨c', hrequests, hresult⟩ :=
      retryLoop_next settings clock left c (h k le_rfl (by omega))
    obtain ⟨hrest, hend⟩ := ih (k := k + 1) (c := c') fun j hk hj => h j (by omega) (by omega)
    rw [hrequests, hresult, hrest]
    exact ⟨by omega, hend⟩

/-- The outcomes that end a call, and what the caller gets: a JSON object, or the error of a 4xx
other than 401. -/
inductive Decides : AttemptReply → Except CallError Json → Prop
  | body (text : String) (kvs : List (String × Json)) :
      Decides (.response 200 text (some (.obj kvs))) (.ok (.obj kvs))
  | clientError {status : ℕ} (text : String) (json : Option Json) (hle : 400 ≤ status)
      (hlt : status < 500) (hne : status ≠ 401) :
      Decides (.response status text json) (.error (.daraja (clientError status text json)))

/-- An attempt that meets a timeout, a transport error or a 5xx, or is decided. -/
def Answered (reply : AttemptReply) : Prop :=
  reply.ambiguous = true ∨ ∃ result, Decides reply result

theorem Decides.error {e : CallError} (h : Decides reply (.error e)) : ∃ d, e = .daraja d := by
  cases h with
  | clientError text json hle hlt hne => exact ⟨_, rfl⟩

theorem retryLoop_of_decides (h : Decides (replies k) result) :
    (retryLoop settings clock replies k left c).requests = 1 ∧
      (retryLoop settings clock replies k left c).result = result := by
  rw [retryLoop]
  cases h' : replies k with
  | response status text json =>
    rw [h'] at h
    cases h with
    | body text kvs => exact ⟨rfl, rfl⟩
    | clientError text json hle hlt hne =>
      have h5 : ¬ 500 ≤ status := by omega
      simp [executeRequest, AttemptReply.sent, h5, hle, hne]
  | authError e => cases h' ▸ h
  | tokenError => cases h' ▸ h
  | timeout => cases h' ▸ h
  | transportError => cases h' ▸ h

theorem retryLoop_until {m : ℕ} (hkm : k ≤ m) (hm : m ≤ k + left)
    (hbefore : ∀ j, k ≤ j → j < m → (replies j).ambiguous = true)
    (hend : ∀ left c, (retryLoop settings clock replies m left c).requests = 1 ∧
      (retryLoop settings clock replies m left c).result = result) :
    (retryLoop settings clock replies k left c).requests = m - k + 1 ∧
      (retryLoop settings clock replies k left c).result = result := by
  induction left generalizing k c with
  | zero =>
    obtain rfl : m = k := by omega
    rw [Nat.sub_self]
    exact hend 0 c
  | succ left ih =>
    rcases Nat.eq_or_lt_of_le hkm with rfl | hlt
    · rw [Nat.sub_self]
      exact hend (left + 1) c
    · obtain ⟨c', hrequests, hresult⟩ :=
        retryLoop_next settings clock left c (hbefore k le_rfl hlt)
      obtain ⟨hrest, hlast⟩ := ih (k := k + 1) (c := c') hlt (by omega)
        fun j hk hj => hbefore j (by omega) hj
      rw [hrequests, hresult, hrest]
      exact ⟨by omega, hlast⟩

/-- The first attempt that is not transient decides; when there is none, all attempts are made and
`DarajaTimeoutError` is raised. Whatever is raised is a `DarajaError`. -/
structure DecidedByFirst (attempts : ℕ) (replies : ℕ → AttemptReply) (run : PostRun) : Prop where
  first : ∀ k < attempts, (∀ j < k, (replies j).ambiguous = true) →
    (replies k).ambiguous = false → run.requests = k + 1 ∧ Decides (replies k) run.result
  exhausted : (∀ k < attempts, (replies k).ambiguous = true) →
    run.requests = attempts ∧ ∃ e, run.result = .error (.daraja e) ∧ e.cls = .timeout
  raised : ∀ e, run.result = .error e → ∃ d, e = .daraja d

theorem post_of_closed (h : c.state = .closed) :
    post settings attempts now clock replies c =
      retryLoop settings clock replies 0 (attempts - 1) c := by
  simp [post, DarajaClient.checkCircuit, h]

theorem post_exhausted (hattempts : 1 ≤ attempts) (hclosed : c.state = .closed)
    (h : ∀ k < attempts, (replies k).ambiguous = true) :
    (post settings attempts now clock replies c).requests = attempts ∧
      (post settings attempts now clock replies c).result = .error .retryError := by
  rw [post_of_closed hclosed]
  have hloop : (retryLoop settings clock replies 0 (attempts - 1) c).requests = attempts - 1 + 1 ∧
      (retryLoop settings clock replies 0 (attempts - 1) c).result = .error .retryError := by
    apply retryLoop_exhausted
    intro j _ hj
    exact h j (by omega)
  rwa [Nat.sub_add_cancel hattempts] at hloop

theorem post_of_first (hclosed : c.state = .closed) (hk : k < attempts)
    (hbefore : ∀ j < k, (replies j).ambiguous = true) (h : Decides (replies k) result) :
    (post settings attempts now clock replies c).requests = k + 1 ∧
      (post settings attempts now clock replies c).result = result := by
  rw [post_of_closed hclosed]
  exact retryLoop_until (Nat.zero_le k) (by omega) (fun j _ hj => hbefore j hj)
    fun _ _ => retryLoop_of_decides h

/-- Among attempts that are not all transient there is a first one that decides. -/
theorem exists_first_decides (hreplies : ∀ k, Answered (replies k))
    (h : ∃ k < attempts, (replies k).ambiguous = false) :
    ∃ k < attempts, (∀ j < k, (replies j).ambiguous = true) ∧
      (replies k).ambiguous = false ∧ ∃ result, Decides (replies k) result := by
  obtain ⟨hk, hdecisive⟩ := Nat.find_spec h
  refine ⟨Nat.find h, hk, ?_, hdecisive, ?_⟩
  · intro j hj
    rw [← Bool.not_eq_false]
    intro hfalse
    exact Nat.find_min h hj ⟨hj.trans hk, hfalse⟩
  · rcases hreplies (Nat.find h) with htransient | hdecides
    · rw [hdecisive] at htransient
      cases htransient
    · exact hdecides

theorem first_unique {m : ℕ} (hk : (replies k).ambiguous = false)
    (hm : (replies m).ambiguous = false) (hbeforek : ∀ j < k, (replies j).ambiguous = true)
    (hbeforem : ∀ j < m, (replies j).ambiguous = true) : k = m := by
  rcases Nat.lt_trichotomy k m with hlt | heq | hlt
  · rw [hbeforem k hlt] at hk
    cases hk
  · exact heq
  · rw [hbeforek m hlt] at hm
    cases hm

theorem DecidedByFirst.of_first {run : PostRun} (hk : k < attempts)
    (hbefore : ∀ j < k, (replies j).ambiguous = true) (hdecisive : (replies k).ambiguous = false)
    (hrequests : run.requests = k + 1) (h : Decides (replies k) run.result) :
    DecidedByFirst attempts replies run := by
  constructor
  · intro m _ hearlier hm
    obtain rfl : m = k := first_unique hm hdecisive hearlier hbefore
    exact ⟨hrequests, h⟩
  · intro hall
    rw [hall k hk] at hdecisive
    cases hdecisive
  · intro e he
    rw [he] at h
    exact h.error

/-- A call is decided as described exactly when one of its attempts is decisive. -/
theorem post_decidedByFirst_iff (hattempts : 1 ≤ attempts) (hclosed : c.state = .closed)
    (hreplies : ∀ k, Answered (replies k)) :
    DecidedByFirst attempts replies (post settings attempts now clock replies c) ↔
      ∃ k < attempts, (replies k).ambiguous = false := by
  constructor
  · intro h
    by_contra hnone
    have hall : ∀ k < attempts, (replies k).ambiguous = true := by
      intro k hk
      rw [← Bool.not_eq_false]
      intro hfalse
      exact hnone ⟨k, hk, hfalse⟩
    obtain ⟨d, hd⟩ := h.raised _ (post_exhausted hattempts hclosed hall).2
    cases hd
  · intro hsome
    obtain ⟨k, hk, hbefore, hdecisive, result, hresult⟩ := exists_first_decides hreplies hsome
    have hrun : (post settings attempts now clock replies c).requests = k + 1 ∧
        (post settings attempts now clock replies c).result = result :=
      post_of_first hclosed hk hbefore hresult
    obtain ⟨hrequests, hpost⟩ := hrun
    rw [← hpost] at hresult
    exact DecidedByFirst.of_first hk hbefore hdecisive hrequests hresult

def slowReplies : ℕ → AttemptReply
  | 0 => .timeout
  | _ => .response 200 "" (some (.obj [("ResponseCode", .str "0")]))

theorem post_decidedByFirst_sample :
    DecidedByFirst 3 slowReplies (post {} 3 0 (fun k => k) slowReplies {}) := by
  refine (post_decidedByFirst_iff (by decide) rfl ?_).mpr ⟨1, by decide, rfl⟩
  intro k
  cases k with
  | zero => exact Or.inl rfl
  | succ k => exact Or.inr ⟨_, .body _ _⟩

theorem post_raises_retryError :
    ¬ ∀ (settings : Settings) (attempts : ℕ) (now : ℚ) (clock : ℕ → ℚ)
      (replies : ℕ → AttemptReply) (c : DarajaClient), 1 ≤ attempts → c.state = .closed →
      (∀ k, Answered (replies k)) →
      DecidedByFirst attempts replies (post settings attempts now clock replies c) := by
  intro h
  have hdecided := h {} 3 0 (fun k => k) (fun _ => .timeout) {} (by decide) rfl
    fun _ => Or.inl rfl
  obtain ⟨d, hd⟩ := hdecided.raised .retryError rfl
  cases hd

end DarajaWrapper
