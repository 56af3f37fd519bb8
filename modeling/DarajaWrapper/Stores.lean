import DarajaWrapper.Models.Payment

/-!
# The two stores as a worker sees them

An operation on Redis or PostgreSQL may go through, may never reach the server,
or may take effect there while its reply is lost. The helpers of the service
that swallow Redis errors are written over one key: its value or `none`.
-/

namespace DarajaWrapper

/-- What becomes of one request to a server. -/
inductive Link where
  | up
  | down
  | replyLost
  deriving DecidableEq, Repr

section Redis

variable {α : Type*}

/-- `_redis_get`: an error reads as a missing key. -/
def redisGet (link : Link) (slot : Option α) : Option α :=
  if link = .up then slot else none

/-- `_redis_set_nx`: what it returns and the key afterwards. On an error the caller is let
through. -/
def redisSetNx (link : Link) (slot : Option α) (v : α) : Bool × Option α :=
  match link with
  | .up => (slot.isNone, some (slot.getD v))
  | .down => (true, slot)
  | .replyLost => (true, some (slot.getD v))

def redisSetex (link : Link) (slot : Option α) (v : α) : Option α :=
  if link = .down then slot else some v

def redisDelete (link : Link) (slot : Option α) : Option α :=
  if link = .down then slot else none

theorem redisGet_eq_some {link : Link} {slot : Option α} {v : α} (h : redisGet link slot = some v) :
    slot = some v := by
  unfold redisGet at h
  split_ifs at h
  exact h

/-- The caller is turned away exactly when the server answers that the key exists. -/
theorem redisSetNx_refused {link : Link} {slot : Option α} {v : α} :
    (redisSetNx link slot v).1 = false ↔ link = .up ∧ slot.isSome = true := by
  cases link <;> cases slot <;> simp [redisSetNx]

theorem redisSetNx_of_some {link : Link} {v w : α} : (redisSetNx link (some w) v).2 = some w := by
  cases link <;> rfl

theorem redisSetex_eq_some {link : Link} {slot : Option α} {v w : α}
    (h : redisSetex link slot v = some w) : slot = some w ∨ w = v := by
  unfold redisSetex at h
  split_ifs at h
  · exact Or.inl h
  · exact Or.inr (Option.some.inj h).symm

theorem redisDelete_eq_some {link : Link} {slot : Option α} {v : α}
    (h : redisDelete link slot = some v) : slot = some v := by
  unfold redisDelete at h
  split_ifs at h
  exact h

section

variable {β : Type*} (link : Link) (slot : Option α)

theorem redisGet_map (f : α → β) : redisGet link (slot.map f) = (redisGet link slot).map f := by
  unfold redisGet
  split_ifs <;> rfl

theorem redisSetNx_map_const (v : α) (b : β) :
    redisSetNx link (slot.map fun _ => b) b =
      ((redisSetNx link slot v).1, (redisSetNx link slot v).2.map fun _ => b) := by
  cases link <;> cases slot <;> rfl

theorem redisSetex_map (f : α → β) (v : α) :
    redisSetex link (slot.map f) (f v) = (redisSetex link slot v).map f := by
  unfold redisSetex
  split_ifs <;> rfl

theorem redisDelete_map (f : α → β) :
    redisDelete link (slot.map f) = (redisDelete link slot).map f := by
  unfold redisDelete
  split_ifs <;> rfl

end

end Redis

/-- A statement followed by `commit`: the committed table, and whether the caller sees
success. `next` is `none` when the statement fails; every failure is rolled back. -/
def commit (link : Link) (t : PaymentsTable) (next : Option PaymentsTable) :
    PaymentsTable × Bool :=
  match link, next with
  | .up, some t' => (t', true)
  | .replyLost, some t' => (t', false)
  | _, _ => (t, false)

theorem commit_fst {link : Link} {t : PaymentsTable} {next : Option PaymentsTable} :
    (commit link t next).1 = t ∨ link ≠ .down ∧ next = some (commit link t next).1 := by
  cases link <;> cases next <;> simp [commit]

theorem commit_of_snd {link : Link} {t : PaymentsTable} {next : Option PaymentsTable}
    (h : (commit link t next).2 = true) : link = .up ∧ next = some (commit link t next).1 := by
  cases link <;> cases next <;> simp_all [commit]

theorem commit_snd_false {link : Link} {t : PaymentsTable} {next : Option PaymentsTable}
    (h : (commit link t next).2 = false) : link ≠ .up ∨ next = none := by
  cases link <;> cases next <;> simp_all [commit]

end DarajaWrapper
