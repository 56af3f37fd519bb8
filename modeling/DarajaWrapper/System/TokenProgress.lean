import DarajaWrapper.Library.Variant
import DarajaWrapper.System.TokenCache

/-!
# Progress of the token manager

A call of `get_token` waits for the holder of the lock only as long as it counts polls;
then it fetches a token for itself. So the holder may die, or hold the lock for ever, and
still every call is answered; and the only `DarajaError` that it raises is
`DarajaAuthError`.
-/

namespace DarajaWrapper

/-- At most so many operations of the call are left. -/
def TokenStage.left (settings : TokenSettings) : TokenStage → ℕ
  | missed => settings.maxPolls + 4
  | polling left _ => left + 3
  | fetching (some _) => 3
  | fetching none => 2
  | requested (some _) => 2
  | requested none => 1
  | releasing _ => 1
  | returned _ _ => 0
  | raised _ => 0

def TokenStage.finished : TokenStage → Bool
  | returned _ _ => true
  | raised _ => true
  | _ => false

def TokenStage.asleep (now : ℕ) : TokenStage → Bool
  | polling _ wake => now < wake
  | _ => false

/-- The error of the OAuth endpoint that the call raises or is about to raise. -/
def TokenStage.authError? : TokenStage → Option DarajaError
  | releasing (.error (.auth e)) => some e
  | raised (.auth e) => some e
  | _ => none

def TokenAction.id? : TokenAction → Option ℕ
  | tick _ => none
  | call id _ _ => some id
  | acquire id _ => some id
  | poll id _ => some id
  | request id => some id
  | reply id _ _ => some id
  | release id _ => some id

/-- What one operation makes of the stage of its call. -/
structure TokenStage.Next (settings : TokenSettings) (stage stage' : TokenStage) : Prop where
  left_lt : stage'.left settings < stage.left settings
  error : ∀ e, stage'.authError? = some e → stage.authError? = some e ∨ e.cls = .auth

section

variable {settings : TokenSettings} {stage : TokenStage}

theorem TokenStage.finished_iff : stage.finished = true ↔ stage.left settings = 0 := by
  cases stage with
  | fetching lock | requested lock => cases lock <;> simp [finished, left]
  | _ => simp [finished, left]

theorem left_getToken (process : ProcessKind) (link : Link) (cached : Option String) :
    (getToken process link cached).left settings ≤ settings.maxPolls + 4 ∧
      (getToken process link cached).authError? = none := by
  unfold getToken
  split_ifs
  · simp [TokenStage.left, TokenStage.authError?]
  · cases cached with
    | none => exact ⟨le_rfl, rfl⟩
    | some token =>
      cases process <;> simp [ProcessKind.decode, TokenStage.left, TokenStage.authError?]

theorem left_pollNext (settings : TokenSettings) (now left : ℕ) :
    (pollNext now left).left settings = left + 2 ∧ (pollNext now left).authError? = none := by
  cases left <;> exact ⟨rfl, rfl⟩

theorem next_acquireLock (settings : TokenSettings) (now : ℕ) (link : Link)
    (lock : Option RedisEntry) :
    TokenStage.Next settings .missed (acquireLock settings now link lock).1 := by
  have hraised : TokenStage.Next settings .missed (.raised .other) :=
    ⟨Nat.succ_pos _, fun _ h => by cases h⟩
  unfold acquireLock
  by_cases hrefused : link = .down ∨ settings.tokenLockTtlMs = 0
  · simpa only [if_pos hrefused] using hraised
  · simp only [if_neg hrefused]
    by_cases hup : link = .up
    · simp only [if_pos hup]
      cases liveEntry now lock with
      | none => exact ⟨by simp only [TokenStage.left]; omega, fun _ h => by cases h⟩
      | some held =>
        obtain ⟨hleft, herror⟩ := left_pollNext settings now settings.maxPolls
        refine ⟨?_, fun e h => ?_⟩
        · rw [hleft, TokenStage.left]
          omega
        · rw [herror] at h
          cases h
    · simp only [if_neg hup]
      cases liveEntry now lock <;> exact hraised

theorem next_poll (process : ProcessKind) (link : Link) (now left wake : ℕ)
    (cached : Option String) :
    TokenStage.Next settings (.polling left wake) (poll process link now cached left) := by
  unfold poll
  split
  · exact ⟨Nat.succ_pos _, fun _ h => by cases h⟩
  · obtain ⟨hleft, herror⟩ := left_pollNext settings now left
    refine ⟨?_, fun e h => ?_⟩
    · rw [hleft, TokenStage.left]
      omega
    · rw [herror] at h
      cases h

theorem next_request (settings : TokenSettings) (lock : Option ℕ) :
    TokenStage.Next settings (.fetching lock) (.requested lock) := by
  cases lock <;> exact ⟨Nat.lt_succ_self _, fun _ h => by cases h⟩

theorem authError_finish {source : TokenSource} {fetched : Except TokenError String}
    {e : DarajaError} (h : (finish source fetched).authError? = some e) :
    fetched = .error (.auth e) := by
  cases fetched with
  | ok token => cases h
  | error error =>
    cases error with
    | auth e' =>
      cases h
      rfl
    | other => cases h

theorem next_afterFetch {fetched : Except TokenError String}
    (hfetched : ∀ e, fetched = .error (.auth e) → e.cls = .auth) (lock : Option ℕ) :
    TokenStage.Next settings (.requested lock) (afterFetch lock fetched) := by
  cases lock with
  | none =>
    refine ⟨?_, fun e h => Or.inr (hfetched e (authError_finish h))⟩
    cases fetched <;> simp [afterFetch, finish, TokenStage.left]
  | some deadline =>
    refine ⟨Nat.lt_succ_self _, fun e h => Or.inr (hfetched e ?_)⟩
    cases fetched with
    | ok token => cases h
    | error error =>
      cases error with
      | auth e' =>
        cases h
        rfl
      | other => cases h

theorem next_release (link : Link) (fetched : Except TokenError String)
    (cached : Option RedisEntry) :
    TokenStage.Next settings (.releasing fetched) (release link fetched cached).1 := by
  simp only [release]
  split_ifs
  · refine ⟨?_, fun e h => Or.inl ?_⟩
    · cases fetched <;> simp [finish, TokenStage.left]
    · rw [authError_finish h]
      rfl
  · exact ⟨Nat.lt_succ_self _, fun _ h => by cases h⟩

theorem read_auth {reply : OAuthReply} {e : DarajaError} (h : reply.read = .error (.auth e)) :
    e.cls = .auth := by
  unfold OAuthReply.read at h
  split at h
  · cases h
    rfl
  · cases h
    rfl
  · split_ifs at h <;> cases h <;> rfl
  · cases h
  · cases h
    rfl
  · split at h <;> cases h

end

namespace TokenWorld

variable {settings : TokenSettings} {w w' base : TokenWorld} {c : TokenCall}
  {stage : TokenStage} {id : ℕ} {action : TokenAction}

theorem stage?_put_of_ne (hid : id ≠ c.id) : (w.put c stage).stage? id = w.stage? id := by
  have hfind : (w.put c stage).call? id = w.call? id := Rows.find?_update_of_ne (fun _ _ => rfl) hid
  rw [stage?, stage?, hfind]

theorem put_of_step (h : step settings w action = some w') (hid : action.id? = some id) :
    (w.call? id = none ∧ ∃ process link, w' = { w with calls := w.calls ++
      [⟨id, process, getToken process link (cachedToken w.now w.cached)⟩] }) ∨
    ∃ c base stage, w.call? id = some c ∧ base.calls = w.calls ∧ w' = put base c stage ∧
      c.stage.Next settings stage := by
  cases action with
  | tick d => cases hid
  | call id process link =>
    cases hid
    obtain ⟨hnew, hw'⟩ := call_eq_some h
    exact Or.inl ⟨hnew, process, link, hw'⟩
  | acquire id link =>
    cases hid
    simp only [step, Option.bind_eq_bind, Option.bind_eq_some_iff] at h
    obtain ⟨c, hc, h⟩ := h
    split at h
    · rename_i hstage
      refine Or.inr ⟨c, _, _, hc, ?_, (Option.some.inj h).symm, ?_⟩
      · rfl
      · rw [hstage]
        exact next_acquireLock ..
    · cases h
  | poll id link =>
    cases hid
    simp only [step, Option.bind_eq_bind, Option.bind_eq_some_iff] at h
    obtain ⟨c, hc, h⟩ := h
    split at h
    · rename_i left wake hstage
      split_ifs at h
      refine Or.inr ⟨c, w, _, hc, rfl, (Option.some.inj h).symm, ?_⟩
      rw [hstage]
      exact next_poll ..
    · cases h
  | request id =>
    cases hid
    simp only [step, Option.bind_eq_bind, Option.bind_eq_some_iff] at h
    obtain ⟨c, hc, h⟩ := h
    split at h
    · rename_i lock hstage
      refine Or.inr ⟨c, _, _, hc, ?_, (Option.some.inj h).symm, ?_⟩
      · rfl
      · rw [hstage]
        exact next_request ..
    · cases h
  | reply id reply link =>
    cases hid
    simp only [step, Option.bind_eq_bind, Option.bind_eq_some_iff] at h
    obtain ⟨c, hc, h⟩ := h
    split at h
    · rename_i lock hstage
      split at h
      · rename_i token expiresIn hread
        refine Or.inr ⟨c, issue settings w link token expiresIn, _, hc, rfl,
          (Option.some.inj h).symm, ?_⟩
        rw [hstage]
        exact next_afterFetch (fun _ h => by cases h) _
      · rename_i e hread
        refine Or.inr ⟨c, w, _, hc, rfl, (Option.some.inj h).symm, ?_⟩
        rw [hstage]
        refine next_afterFetch (fun e' h => ?_) _
        cases h
        exact read_auth hread
    · cases h
  | release id link =>
    cases hid
    simp only [step, Option.bind_eq_bind, Option.bind_eq_some_iff] at h
    obtain ⟨c, hc, h⟩ := h
    split at h
    · rename_i fetched hstage
      refine Or.inr ⟨c, _, _, hc, ?_, (Option.some.inj h).symm, ?_⟩
      · rfl
      · rw [hstage]
        exact next_release ..
    · cases h

theorem stage?_congr (h : w.calls = w'.calls) : w.stage? id = w'.stage? id := by
  rw [stage?, stage?, call?, call?, h]

theorem stage?_append (process : ProcessKind) {id' : ℕ} (stage : TokenStage)
    (hnew : w.call? id = none) :
    stage? { w with calls := w.calls ++ [⟨id, process, stage⟩] } id' =
      if id' = id then some stage else w.stage? id' := by
  rw [call?] at hnew
  by_cases hid : id' = id
  · subst hid
    simp [stage?, call?, List.find?_append, hnew]
  · have hne : ¬ id = id' := fun h => hid h.symm
    simp [stage?, call?, List.find?_append, hid, hne]

theorem stage?_of_step (h : step settings w action = some w') (hid : action.id? = some id) :
    (w.stage? id = none ∧ ∃ stage, w'.stage? id = some stage ∧
      stage.left settings ≤ settings.maxPolls + 4 ∧ stage.authError? = none) ∨
    ∃ stage stage', w.stage? id = some stage ∧ w'.stage? id = some stage' ∧
      stage.Next settings stage' := by
  rcases put_of_step h hid with ⟨hnew, process, link, rfl⟩ | ⟨c, base, stage, hc, hbase, rfl, hnext⟩
  · have hstage : stage? { w with calls := w.calls ++
        [⟨id, process, getToken process link (cachedToken w.now w.cached)⟩] } id =
          some (getToken process link (cachedToken w.now w.cached)) := by
      rw [stage?_append process _ hnew, if_pos rfl]
    exact Or.inl ⟨by rw [stage?, hnew]; rfl, _, hstage, left_getToken ..⟩
  · obtain rfl : c.id = id := (call?_eq_some hc).2
    have hbase' : base.call? c.id = some c := by rw [call?, hbase]; exact hc
    exact Or.inr ⟨c.stage, stage, by rw [stage?, hc]; rfl, stage?_put hbase', hnext⟩

theorem stage?_of_ne (h : step settings w action = some w') (hid : action.id? ≠ some id) :
    w'.stage? id = w.stage? id := by
  cases haction : action.id? with
  | none =>
    cases action with
    | tick d =>
      cases h
      rfl
    | _ => cases haction
  | some id' =>
    have hne : id ≠ id' := by
      rintro rfl
      exact hid haction
    rcases put_of_step h haction with
      ⟨hnew, process, link, rfl⟩ | ⟨c, base, stage, hc, hbase, rfl, -⟩
    · rw [stage?_append process _ hnew, if_neg hne]
    · obtain rfl : c.id = id' := (call?_eq_some hc).2
      rw [stage?_put_of_ne hne]
      exact stage?_congr hbase

/-- What a call has done so far, and what is left to it. -/
def Accounts (settings : TokenSettings) (id : ℕ) (as : List TokenAction) (w : TokenWorld) : Prop :=
  match w.stage? id with
  | none => as.countP (fun a => a.id? = some id) = 0
  | some stage =>
    as.countP (fun a => a.id? = some id) + stage.left settings ≤ settings.maxPolls + 5 ∧
      ∀ e, stage.authError? = some e → e.cls = .auth

theorem Accounts.step {as : List TokenAction} (hw : Accounts settings id as w)
    (h : TokenWorld.step settings w action = some w') :
    Accounts settings id (as ++ [action]) w' := by
  unfold Accounts at hw ⊢
  rw [List.countP_append, List.countP_singleton]
  by_cases hid : action.id? = some id
  · rw [if_pos (by simpa using hid)]
    rcases stage?_of_step h hid with
      ⟨hnone, stage, hstage, hleft, herror⟩ | ⟨stage, stage', hstage, hstage', hnext⟩
    · simp only [hnone] at hw
      simp only [hstage, hw, herror]
      exact ⟨by omega, fun e h => by cases h⟩
    · simp only [hstage] at hw
      simp only [hstage']
      have hlt := hnext.left_lt
      refine ⟨by omega, fun e he => ?_⟩
      rcases hnext.error e he with hbefore | hcls
      · exact hw.2 e hbefore
      · exact hcls
  · rw [stage?_of_ne h hid, if_neg (by simpa using hid)]
    exact hw

/-- In every run of any number of processes, a call performs at most `max_polls + 5` operations, its
start counted; and the `DarajaError`s that it raises are `DarajaAuthError`s. -/
theorem token_operations_bounded {now : ℕ} {as : List TokenAction}
    (hrun : Machine.run (step settings) (initial now) as = some w)
    (hstage : w.stage? id = some stage) :
    as.countP (fun a => a.id? = some id) + stage.left settings ≤ settings.maxPolls + 5 ∧
      ∀ e, stage = .raised (.auth e) → e.cls = .auth := by
  have hw : Accounts settings id as w := by
    have hinit : Accounts settings id [] (initial now) := rfl
    refine Machine.run_history hinit ?_ hrun
    intro as u a v _ hu hstep
    exact hu.step hstep
  simp only [Accounts, hstage] at hw
  refine ⟨hw.1, ?_⟩
  rintro e rfl
  exact hw.2 e rfl

def waitingCall : List TokenAction :=
  [.call 1 .api .up, .acquire 1 .up, .call 2 .api .up, .acquire 2 .up, .tick 250, .poll 2 .up]

theorem token_operations_bounded_sample :
    ∃ w stage, Machine.run (step {}) (initial 0) waitingCall = some w ∧
      w.stage? 2 = some stage ∧
        waitingCall.countP (fun a => a.id? = some 2) + stage.left {} ≤ 45 :=
  ⟨_, _, rfl, rfl, (@token_operations_bounded {} _ _ 2 0 waitingCall rfl rfl).1⟩

theorem exists_step (settings : TokenSettings) (hc : w.call? id = some c)
    (hlive : c.stage.finished = false) (hawake : c.stage.asleep w.now = false) :
    ∃ a w', a.id? = some id ∧ step settings w a = some w' := by
  cases hs : c.stage with
  | missed => exact ⟨.acquire id .up, _, rfl, by simp [step, hc, hs]; rfl⟩
  | polling left wake =>
    have hwake : wake ≤ w.now := by simpa [hs, TokenStage.asleep] using hawake
    exact ⟨.poll id .up, _, rfl, by simp [step, hc, hs, hwake]; rfl⟩
  | fetching lock => exact ⟨.request id, _, rfl, by simp [step, hc, hs]; rfl⟩
  | requested lock =>
    exact ⟨.reply id .timeout .up, _, rfl, by simp [step, hc, hs, OAuthReply.read]; rfl⟩
  | releasing fetched => exact ⟨.release id .up, _, rfl, by simp [step, hc, hs]; rfl⟩
  | returned token source | raised e =>
    rw [hs] at hlive
    cases hlive

/-- A call that has not ended can take its next operation, or sleeps until it can. -/
theorem exists_next (settings : TokenSettings) (hstage : w.stage? id = some stage)
    (hlive : stage.finished = false) :
    ∃ a w' stage', (a.id? = some id ∨ ∃ d, a = .tick d) ∧ step settings w a = some w' ∧
      w'.stage? id = some stage' ∧
      2 * stage'.left settings + (stage'.asleep w'.now).toNat <
        2 * stage.left settings + (stage.asleep w.now).toNat := by
  obtain ⟨c, hc, rfl⟩ := Option.map_eq_some_iff.mp hstage
  cases hasleep : c.stage.asleep w.now with
  | false =>
    obtain ⟨a, w', ha, hstep⟩ := exists_step settings hc hlive hasleep
    rcases stage?_of_step hstep ha with ⟨hnone, -⟩ | ⟨stage, stage', hstage', hnew, hnext⟩
    · cases hnone.symm.trans hstage
    · cases hstage.symm.trans hstage'
      have hlt := hnext.left_lt
      have htoNat := Bool.toNat_le (stage'.asleep w'.now)
      exact ⟨a, w', stage', Or.inl ha, hstep, hnew, by omega⟩
  | true =>
    cases hs : c.stage with
    | polling left wake =>
      refine ⟨.tick (wake - w.now), _, .polling left wake, Or.inr ⟨_, rfl⟩, rfl, ?_, ?_⟩
      · exact hs ▸ hstage
      · have hawake : (TokenStage.polling left wake).asleep (w.now + (wake - w.now)) = false := by
          simp only [TokenStage.asleep, decide_eq_false_iff_not]
          omega
        simp only [hawake, Bool.toNat_false, Bool.toNat_true]
        omega
    | _ =>
      rw [hs] at hasleep
      cases hasleep

/-- From every state, whoever holds the lock, a call comes to its end by its own operations and by
the passing of time. -/
theorem token_finishes_alone (settings : TokenSettings) (hstage : w.stage? id = some stage) :
    ∃ as w' stage', (∀ a ∈ as, a.id? = some id ∨ ∃ d, a = .tick d) ∧
      Machine.run (step settings) w as = some w' ∧ w'.stage? id = some stage' ∧
      stage'.finished = true ∧ as.length ≤ 2 * stage.left settings + 1 := by
  have hstep : ∀ u : TokenWorld, (∃ stage, u.stage? id = some stage) →
      ¬ (∃ stage, u.stage? id = some stage ∧ stage.finished = true) →
        ∃ a v, (a.id? = some id ∨ ∃ d, a = .tick d) ∧ step settings u a = some v ∧
          (∃ stage, v.stage? id = some stage) ∧
          (v.stage? id).elim 0 (fun s => 2 * s.left settings + (s.asleep v.now).toNat) <
            (u.stage? id).elim 0 fun s => 2 * s.left settings + (s.asleep u.now).toNat := by
    rintro u ⟨stage, hs⟩ hlive
    have hunfinished : stage.finished = false := by
      rw [← Bool.not_eq_true]
      intro hfinished
      exact hlive ⟨stage, hs, hfinished⟩
    obtain ⟨a, v, stage', ha, hstep, hs', hlt⟩ := exists_next settings hs hunfinished
    refine ⟨a, v, ha, hstep, ⟨stage', hs'⟩, ?_⟩
    rw [hs, hs']
    exact hlt
  obtain ⟨as, w', has, hrun, ⟨stage', hs', hdone⟩, hlen⟩ :=
    Machine.exists_run_of_variant _ _ _ _ hstep ⟨stage, hstage⟩
  rw [hstage] at hlen
  have htoNat := Bool.toNat_le (stage.asleep w.now)
  exact ⟨as, w', stage', has, hrun, hs', hdone, hlen.trans (by simp only [Option.elim_some]; omega)⟩

theorem token_finishes_alone_sample :
    ∃ w as w' stage', Machine.run (step {}) (initial 0) waitingCall = some w ∧
      (∀ a ∈ as, a.id? = some 2 ∨ ∃ d, a = .tick d) ∧
      Machine.run (step {}) w as = some w' ∧ w'.stage? 2 = some stage' ∧
      stage'.finished = true := by
  obtain ⟨w, stage, hrun, hstage⟩ : ∃ w stage,
      Machine.run (step {}) (initial 0) waitingCall = some w ∧ w.stage? 2 = some stage :=
    ⟨_, _, rfl, rfl⟩
  obtain ⟨as, w', stage', has, hfinish, hs', hdone, -⟩ := token_finishes_alone {} hstage
  exact ⟨w, as, w', stage', hrun, has, hfinish, hs', hdone⟩

end TokenWorld
end DarajaWrapper
