import Lunarbase.Client.Availability
import Lunarbase.Support.RetryLoop
import Lunarbase.Support.Run

/-!
# Client — Races

Concurrent calls on one availability word.  A call that holds a token is a single load or
compare-exchange; the others load the word and retry a weak compare-exchange.  Threads take atomic
steps in any order (`Machine.perform`).

Every transition moves the word to the next version, so no value ever comes back: a token is
current only until the next transition, whoever makes it.  The history of the word is kept as a
ghost, with the tokens that corrections, publications and expirations began with.
-/

namespace Lunarbase.Client.Availability

open List RetryLoop Function

/-! ### Calls -/

/-- The calls that hold a token. -/
inductive TokenCall where
  | publishIf
  | completeCorrection
  | completePublication
  | failCorrection
  | beginExpiration
  | finishExpiration (unchanged : Bool)
  deriving DecidableEq

/-- The calls that retry until the word they found is the word they replace. -/
inductive LoopCall where
  | beginCorrection
  | beginPublication
  | revoke
  | invalidateSourceLease
  | stop
  deriving DecidableEq

inductive Result where
  | flag (value : Bool)
  | token (value : Option Token)
  deriving DecidableEq

/-- The tokens a call hands out. -/
def Result.tokens : Result → List Token
  | .token (some handed) => [handed]
  | _ => []

namespace TokenCall

/-- The one atomic step of the call. -/
def run (call : TokenCall) (token word : Token) : Token × Result :=
  match call with
  | .publishIf => (Availability.publishIf word token).map id .flag
  | .completeCorrection => (Availability.completeCorrection word token).map id .flag
  | .completePublication => (Availability.completePublication word token).map id .flag
  | .failCorrection => (Availability.failCorrection word token).map id .flag
  | .beginExpiration => (Availability.beginExpiration word token).map id .token
  | .finishExpiration unchanged =>
    (Availability.finishExpiration word token unchanged).map id .flag

/-- The call completes or fails what began with its token. -/
def finishes : TokenCall → Bool
  | .completeCorrection | .completePublication | .failCorrection | .finishExpiration _ => true
  | .publishIf | .beginExpiration => false

end TokenCall

variable (call : LoopCall)

namespace LoopCall

/-- `transition_to_terminal`. -/
def terminal (target : BitVec 64) : RetryLoop Token Result where
  proceeds := fun word => ¬(state word = target ∨ state word = stopping)
  update := fun word => next word target
  finished := fun _ => .flag true
  refused := .flag false

def correction : RetryLoop Token Result where
  proceeds := fun word => state word = ready ∨ state word = expiring
  update := fun word => next word publishing
  finished := fun word => .token (some (next word publishing))
  refused := .token none

def loop : LoopCall → RetryLoop Token Result
  | .beginCorrection => correction
  | .beginPublication => correction
  | .revoke => terminal invalid
  | .stop => terminal stopping
  | .invalidateSourceLease =>
    { proceeds := fun word => state word ≠ stopping
      update := fun word => next word invalid
      finished := fun _ => .flag true
      refused := .flag false }

/-- The call as a single step. -/
def run (call : LoopCall) (word : Token) : Token × Result :=
  match call with
  | .beginCorrection => (Availability.beginCorrection word).map id .token
  | .beginPublication => (Availability.beginPublication word).map id .token
  | .revoke => (Availability.revoke word).map id .flag
  | .invalidateSourceLease => (Availability.invalidateSourceLease word).map id .flag
  | .stop => (Availability.stop word).map id .flag

theorem terminal_atomic (target : BitVec 64) (word : Token) :
    (terminal target).atomic word = (transitionToTerminal word target).map id .flag := by
  rw [atomic, transitionToTerminal]
  by_cases h : state word = target ∨ state word = stopping
  · have hrefused : ¬(terminal target).proceeds word = true := fun hp => of_decide_eq_true hp h
    rw [if_pos h, if_neg hrefused]
    rfl
  · have hproceeds : (terminal target).proceeds word = true := decide_eq_true h
    rw [if_neg h, if_pos hproceeds]
    rfl

theorem correction_atomic (word : Token) :
    correction.atomic word = (Availability.beginCorrection word).map id .token := by
  rw [atomic, Availability.beginCorrection]
  by_cases h : state word = ready ∨ state word = expiring
  · rw [if_pos h, if_pos (by simpa [correction] using h)]
    rfl
  · rw [if_neg h, if_neg (by simpa [correction] using h)]
    rfl

/-- The retried call is the call in one step. -/
theorem loop_atomic (word : Token) : call.loop.atomic word = call.run word := by
  cases call with
  | beginCorrection | beginPublication => exact correction_atomic word
  | revoke => exact terminal_atomic invalid word
  | stop => exact terminal_atomic stopping word
  | invalidateSourceLease =>
    rw [atomic, run, Availability.invalidateSourceLease]
    by_cases h : state word = stopping
    · rw [if_pos h, if_neg (by simpa [loop] using h)]
      rfl
    · rw [if_neg h, if_pos (by simpa [loop] using h)]
      rfl

end LoopCall

/-! ### The machine -/

inductive Call where
  | token (call : TokenCall) (token : Token)
  | loop (call : LoopCall)

/-- A call that has not returned: it has taken no step, or is in its loop with the value it
observed last. -/
inductive Flight where
  | started (call : Call)
  | retrying (call : LoopCall) (current : Token)

structure Machine where
  word : Token
  flights : Nat → Option Flight
  /-- Every value the word has had, the latest first. -/
  history : List Token
  /-- The tokens that corrections, publications and expirations began with. -/
  begun : List Token
  /-- Those of them that nobody has completed, failed or finished. -/
  unfinished : List Token

namespace Machine

def initial : Machine := ⟨new, fun _ => none, [new], [], []⟩

/-- The number of transitions so far. -/
def transitions (m : Machine) : Nat := m.history.length - 1

/-- The word after a step that may have been a transition. -/
def write (m : Machine) (word : Token) : Machine :=
  if word = m.word then m else { m with word := word, history := word :: m.history }

/-- The thread's call has returned. -/
def return_ (m : Machine) (thread : Nat) (word : Token) (result : Result) : Machine :=
  { m.write word with
    flights := update m.flights thread none
    begun := result.tokens ++ m.begun
    unfinished := result.tokens ++ m.unfinished }

/-- The token was completed, failed or finished. -/
def settle (m : Machine) (token : Token) : Machine :=
  { m with unfinished := m.unfinished.filter (· ≠ token) }

def progress (m : Machine) (thread : Nat) (call : LoopCall)
    (out : Token × RetryLoop.Progress Token Result) : Machine :=
  match out.2 with
  | .running current =>
    { m.write out.1 with
      flights := update m.flights thread (some (.retrying call current)) }
  | .returned result => m.return_ thread out.1 result

/-- The next atomic step of a thread. -/
def act (m : Machine) (thread : Nat) (spurious : Bool) : Machine :=
  match m.flights thread with
  | none => m
  | some (.started (.token call token)) =>
    let out := call.run token m.word
    (if call.finishes then m.settle token else m).return_ thread out.1 out.2
  | some (.started (.loop call)) =>
    m.progress thread call (m.word, call.loop.observe m.word)
  | some (.retrying call current) =>
    m.progress thread call (call.loop.attempt current m.word spurious)

def invoke (m : Machine) (thread : Nat) (call : Call) : Machine :=
  match m.flights thread with
  | none => { m with flights := update m.flights thread (some (.started call)) }
  | some _ => m

end Machine

inductive Action where
  | invoke (thread : Nat) (call : Call)
  | act (thread : Nat) (spurious : Bool)

def Machine.perform (m : Machine) : Action → Machine
  | .invoke thread call => m.invoke thread call
  | .act thread spurious => m.act thread spurious

/-- Whoever completes, fails or finishes something holds the token it began with. -/
def Machine.owns (m : Machine) : Action → Bool
  | .invoke _ (.token call token) => !call.finishes || decide (token ∈ m.begun)
  | _ => true

/-- The calls own what they finish, and there are fewer than `2 ^ 61` transitions. -/
def Machine.permits (m : Machine) (action : Action) : Bool :=
  m.owns action && decide ((m.perform action).transitions < 2 ^ 61)

/-- A later state of an interleaving. -/
def Machine.Leads (m later : Machine) : Prop :=
  Run Machine.perform (fun m action => m.permits action = true) m later

/-! ### One step -/

variable {target : BitVec 64}

/-- Even past the last version the next word is another one. -/
theorem next_ne (word : Token) (htarget : target.toNat < 8) : next word target ≠ word := by
  by_cases hversion : hasVersion word = true
  · exact fun heq => (toNat_lt_next htarget hversion).ne' (congrArg BitVec.toNat heq)
  -- The version wraps around to zero.
  have hlast : 2 ^ 64 ≤ word.toNat + 8 := not_lt.mp fun hlt => hversion (decide_eq_true hlt)
  have hzero : word + (stateMask + 1) - (word &&& stateMask) = 0 := by
    refine BitVec.eq_of_toNat_eq ?_
    have hlt := word.isLt
    rw [BitVec.toNat_sub, BitVec.toNat_add, toNat_and_stateMask]
    simp [stateMask]
    omega
  rw [next, hzero]
  intro heq
  have htoNat : target.toNat = word.toNat := by
    rw [← heq]
    exact congrArg BitVec.toNat (BitVec.zero_or (x := target)).symm
  omega

/-- A correction, a publication or an expiration is under way. -/
def UnderWay (state : BitVec 64) : Prop := state = publishing ∨ state = expiring

/-- Nothing is under way. -/
def Settled (state : BitVec 64) : Prop := state = invalid ∨ state = ready ∨ state = stopping

theorem UnderWay.toNat_lt (h : UnderWay target) : target.toNat < 8 := by
  rcases h with rfl | rfl <;> decide

theorem Settled.toNat_lt (h : Settled target) : target.toNat < 8 := by
  rcases h with rfl | rfl | rfl <;> decide

theorem Settled.not_underWay (h : Settled target) : ¬UnderWay target := by
  rcases h with rfl | rfl | rfl <;> rintro (hway | hway) <;> exact nomatch hway

/-- What the last step of a call does: nothing, or a transition.  A transition hands out its word
exactly when it begins something. -/
inductive Effect (word : Token) : Token × Result → Prop where
  | stays {result : Result} (htokens : result.tokens = []) : Effect word (word, result)
  | begins {target : BitVec 64} {result : Result} (htarget : UnderWay target)
      (htokens : result.tokens = [next word target]) : Effect word (next word target, result)
  | ends {target : BitVec 64} {result : Result} (htarget : Settled target)
      (htokens : result.tokens = []) : Effect word (next word target, result)

namespace TokenCall

variable {word token : Token} (call : TokenCall)

/-- A call finds its token, or leaves the word as it is. -/
theorem run_of_ne (h : word ≠ token) : (call.run token word).1 = word := by
  have hcas : ∀ target, compareExchange word token target = (word, false) := fun target => if_neg h
  cases call with
  | publishIf =>
    rw [run, Availability.publishIf]
    split
    · rfl
    split
    · rfl
    rw [hcas]
    rfl
  | completeCorrection => rw [run, Availability.completeCorrection, hcas]; rfl
  | completePublication =>
    rw [run, Availability.completePublication, Availability.completeCorrection, hcas]; rfl
  | failCorrection => rw [run, Availability.failCorrection, hcas]; rfl
  | beginExpiration =>
    rw [run, Availability.beginExpiration]
    split
    · rfl
    · rfl
  | finishExpiration unchanged => rw [run, Availability.finishExpiration, hcas]; rfl

/-- What a call with the current token does. -/
theorem run_self (word : Token) :
    Effect word (call.run word word) ∧ (call.finishes = true → (call.run word word).1 ≠ word) ∧
      (call.finishes = false → state word = stopping → (call.run word word).1 = word) := by
  have hcas : ∀ target, compareExchange word word target = (target, true) :=
    fun target => if_pos rfl
  cases call with
  | publishIf =>
    refine ⟨?_, fun hfinishes => absurd hfinishes (by decide), fun _ hstopping => ?_⟩
    · rw [run, Availability.publishIf]
      split
      · exact .stays rfl
      split
      · exact .stays rfl
      rw [hcas]
      exact .ends (.inr (.inl rfl)) rfl
    · rw [run, Availability.publishIf, if_pos hstopping]
      rfl
  | completeCorrection =>
    rw [run, Availability.completeCorrection, hcas]
    exact ⟨.ends (.inr (.inl rfl)) rfl, fun _ => next_ne word (by decide), fun h => by cases h⟩
  | completePublication =>
    rw [run, Availability.completePublication, Availability.completeCorrection, hcas]
    exact ⟨.ends (.inr (.inl rfl)) rfl, fun _ => next_ne word (by decide), fun h => by cases h⟩
  | failCorrection =>
    rw [run, Availability.failCorrection, hcas]
    exact ⟨.ends (.inl rfl) rfl, fun _ => next_ne word (by decide), fun h => by cases h⟩
  | beginExpiration =>
    refine ⟨?_, fun hfinishes => absurd hfinishes (by decide), fun _ hstopping => ?_⟩
    · rw [run, Availability.beginExpiration]
      split
      · exact .stays rfl
      rw [if_pos rfl]
      exact .begins (.inr rfl) rfl
    · rw [run, Availability.beginExpiration, hstopping, if_pos (by decide)]
      rfl
  | finishExpiration unchanged =>
    rw [run, Availability.finishExpiration, hcas]
    cases unchanged with
    | true => exact ⟨.ends (.inl rfl) rfl, fun _ => next_ne word (by decide), fun h => by cases h⟩
    | false =>
      exact ⟨.ends (.inr (.inl rfl)) rfl, fun _ => next_ne word (by decide), fun h => by cases h⟩

theorem tokens_of_ne (h : word ≠ token) : (call.run token word).2.tokens = [] := by
  cases call with
  | beginExpiration =>
    rw [run, Availability.beginExpiration]
    split
    · rfl
    · rfl
  | publishIf | completeCorrection | completePublication | failCorrection | finishExpiration _ =>
    rfl

theorem run_effect (token word : Token) : Effect word (call.run token word) := by
  by_cases h : word = token
  · rw [← h]
    exact (run_self call word).1
  · rw [← Prod.eta (call.run token word), run_of_ne call h]
    exact .stays (tokens_of_ne call h)

end TokenCall

namespace LoopCall

theorem run_effect (word : Token) : Effect word (call.run word) := by
  have hterminal : ∀ target, Settled target →
      Effect word ((transitionToTerminal word target).map id .flag) := by
    intro target htarget
    rw [transitionToTerminal]
    split
    · exact .stays rfl
    · exact .ends htarget rfl
  have hcorrection : Effect word ((Availability.beginCorrection word).map id .token) := by
    rw [Availability.beginCorrection]
    split
    · exact .begins (.inl rfl) rfl
    · exact .stays rfl
  cases call with
  | beginCorrection | beginPublication => exact hcorrection
  | revoke => exact hterminal invalid (.inl rfl)
  | stop => exact hterminal stopping (.inr (.inr rfl))
  | invalidateSourceLease =>
    rw [run, Availability.invalidateSourceLease]
    split
    · exact .stays rfl
    · exact .ends (.inl rfl) rfl

theorem run_of_stopping {word : Token} (h : state word = stopping) : (call.run word).1 = word := by
  have hcorrection : (Availability.beginCorrection word).1 = word := by
    rw [Availability.beginCorrection, h, if_neg (by decide)]
  cases call with
  | beginCorrection | beginPublication => exact hcorrection
  | revoke => rw [run, Availability.revoke, transitionToTerminal, if_pos (.inr h)]; rfl
  | stop => rw [run, Availability.stop, transitionToTerminal, if_pos (.inr h)]; rfl
  | invalidateSourceLease => rw [run, Availability.invalidateSourceLease, if_pos h]; rfl

end LoopCall

namespace Machine

variable {m m' later : Machine}

/-- What is known of a call in flight: it owns what it will finish, and the value it will replace
is one that it may replace. -/
def Sound (m : Machine) : Flight → Prop
  | .started (.token call token) => call.finishes = true → token ∈ m.begun
  | .started (.loop _) => True
  | .retrying call current => call.loop.proceeds current = true

/-- What one action does to the word and the tokens. -/
inductive Change (m m' : Machine) : Prop where
  | stays (hword : m'.word = m.word) (hhistory : m'.history = m.history)
      (hbegun : m'.begun = m.begun) (hunfinished : m.word ∈ m.unfinished → m.word ∈ m'.unfinished)
  | begins {target : BitVec 64} (htarget : UnderWay target) (hword : m'.word = next m.word target)
      (hhistory : m'.history = m'.word :: m.history) (hbegun : m'.begun = m'.word :: m.begun)
      (hunfinished : m'.word ∈ m'.unfinished)
  | ends {target : BitVec 64} (htarget : Settled target) (hword : m'.word = next m.word target)
      (hhistory : m'.history = m'.word :: m.history) (hbegun : m'.begun = m.begun)

theorem write_same (m : Machine) : m.write m.word = m := if_pos rfl

theorem write_word (m : Machine) (word : Token) : (m.write word).word = word := by
  rw [write]
  split
  next heq => exact heq.symm
  · rfl

theorem write_next (m : Machine) (htarget : target.toNat < 8) :
    m.write (next m.word target) =
      { m with word := next m.word target, history := next m.word target :: m.history } :=
  if_neg (next_ne m.word htarget)

/-- A call that returns, from a machine in which it may have settled its token. -/
theorem return_change {m₀ : Machine} (thread : Nat) {out : Token × Result}
    (heffect : Effect m.word out) (hword : m₀.word = m.word) (hhistory : m₀.history = m.history)
    (hbegun : m₀.begun = m.begun)
    (hunfinished : out.1 = m.word → m.word ∈ m.unfinished → m.word ∈ m₀.unfinished) :
    Change m (m₀.return_ thread out.1 out.2) := by
  rw [return_]
  cases heffect with
  | stays htokens =>
    rw [htokens, ← hword, write_same]
    exact .stays hword hhistory hbegun (hunfinished rfl)
  | begins htarget htokens =>
    rw [htokens, ← hword, write_next m₀ htarget.toNat_lt]
    refine .begins htarget (congrArg (next · _) hword) ?_ ?_ ?_
    · exact congrArg (_ :: ·) hhistory
    · exact congrArg (_ :: ·) hbegun
    · exact mem_cons_self
  | ends htarget htokens =>
    rw [htokens, ← hword, write_next m₀ htarget.toNat_lt]
    exact .ends htarget (congrArg (next · _) hword) (congrArg (_ :: ·) hhistory) hbegun

theorem stays_of_eq {m' : Machine} (hword : m'.word = m.word) (hhistory : m'.history = m.history)
    (hbegun : m'.begun = m.begun) (hunfinished : m'.unfinished = m.unfinished) : Change m m' :=
  .stays hword hhistory hbegun fun hmem => hunfinished ▸ hmem

variable {out : Token × RetryLoop.Progress Token Result}

theorem progress_change (thread : Nat) (call : LoopCall)
    (hreturned : ∀ result, out.2 = .returned result → call.run m.word = (out.1, result))
    (hrunning : ∀ current, out.2 = .running current → out.1 = m.word) :
    Change m (m.progress thread call out) := by
  cases hout : out.2 with
  | running current =>
    rw [progress, hout, hrunning current hout, write_same]
    exact stays_of_eq rfl rfl rfl rfl
  | returned result =>
    have heffect := call.run_effect m.word
    rw [hreturned result hout] at heffect
    rw [progress, hout]
    exact return_change thread heffect rfl rfl rfl fun _ hmem => hmem

theorem act_change (hsound : ∀ thread flight, m.flights thread = some flight → m.Sound flight)
    (thread : Nat) (spurious : Bool) : Change m (m.act thread spurious) := by
  cases hflight : m.flights thread with
  | none =>
    rw [act, hflight]
    exact stays_of_eq rfl rfl rfl rfl
  | some flight =>
    cases flight with
    | started call =>
      cases call with
      | token call token =>
        rw [act, hflight]
        refine return_change thread (call.run_effect token m.word) ?_ ?_ ?_ ?_
        · split <;> rfl
        · split <;> rfl
        · split <;> rfl
        -- A call that finishes has moved the word, unless it did not find its token.
        intro hstays hmem
        split
        next hfinishes =>
          refine mem_filter.mpr ⟨hmem, decide_eq_true fun heq => ?_⟩
          rw [← heq] at hstays
          exact (call.run_self m.word).2.1 hfinishes hstays
        · exact hmem
      | loop call =>
        rw [act, hflight]
        refine progress_change thread call (fun result hresult => ?_) fun _ _ => rfl
        rw [← call.loop_atomic]
        exact atomic_of_observe hresult
    | retrying call current =>
      rw [act, hflight]
      refine progress_change thread call (fun result hresult => ?_) fun observed hobserved => ?_
      · rw [← call.loop_atomic]
        exact atomic_of_attempt (hsound thread _ hflight) (Prod.ext rfl hresult)
      · exact (attempt_running (Prod.ext rfl hobserved)).1

theorem invoke_change (m : Machine) (thread : Nat) (call : Call) :
    Change m (m.invoke thread call) := by
  rw [invoke]
  split <;> exact stays_of_eq rfl rfl rfl rfl

theorem perform_change (hsound : ∀ thread flight, m.flights thread = some flight → m.Sound flight)
    (action : Action) : Change m (m.perform action) := by
  cases action with
  | invoke thread call => exact invoke_change m thread call
  | act thread spurious => exact act_change hsound thread spurious

/-! ### Flights -/

theorem Change.begun_subset (h : Change m m') : m.begun ⊆ m'.begun := by
  cases h with
  | stays _ _ hbegun _ | ends _ _ _ hbegun => exact hbegun ▸ List.Subset.refl _
  | begins _ _ _ hbegun _ => exact hbegun ▸ subset_cons_self _ _

variable {flight : Flight} {other thread : Nat} {token : Token}

theorem Sound.mono (h : m.Sound flight) (hbegun : m.begun ⊆ m'.begun) : m'.Sound flight := by
  cases flight with
  | started call =>
    cases call with
    | token call token => exact fun hfinishes => hbegun (h hfinishes)
    | loop call => trivial
  | retrying call current => exact h

/-- The flights of a machine after one thread's flight was replaced. -/
theorem flights_update {flights : Nat → Option Flight} {replaced : Option Flight}
    (h : update flights thread replaced other = some flight) :
    flights other = some flight ∨ replaced = some flight := by
  by_cases heq : other = thread
  · subst heq
    rw [update_self] at h
    exact .inr h
  · rw [update_of_ne heq] at h
    exact .inl h

theorem progress_flights (thread : Nat) (call : LoopCall)
    (hrunning : ∀ current, out.2 = .running current → call.loop.proceeds current = true)
    (h : (m.progress thread call out).flights other = some flight) :
    m.flights other = some flight ∨ m.Sound flight := by
  cases hout : out.2 with
  | running current =>
    rw [progress, hout] at h
    refine (flights_update h).imp_right fun heq => ?_
    cases heq
    exact hrunning current hout
  | returned result =>
    rw [progress, hout] at h
    exact (flights_update h).imp_right fun heq => by cases heq

theorem perform_flights {action : Action} (howns : m.owns action = true)
    (h : (m.perform action).flights other = some flight) :
    m.flights other = some flight ∨ m.Sound flight := by
  cases action with
  | invoke thread call =>
    rw [perform, invoke] at h
    split at h
    · refine (flights_update h).imp_right fun heq => ?_
      cases heq
      cases call with
      | token call token =>
        intro hfinishes
        rw [owns, hfinishes] at howns
        exact of_decide_eq_true howns
      | loop call => trivial
    · exact .inl h
  | act thread spurious =>
    cases hflight : m.flights thread with
    | none =>
      rw [perform, act, hflight] at h
      exact .inl h
    | some current =>
      cases current with
      | started call =>
        cases call with
        | token call token =>
          rw [perform, act, hflight] at h
          refine (flights_update h).imp (fun hold => ?_) fun heq => by cases heq
          split at hold <;> exact hold
        | loop call =>
          rw [perform, act, hflight] at h
          exact progress_flights thread call
            (fun _ hcurrent => (observe_running hcurrent).2) h
      | retrying call current =>
        rw [perform, act, hflight] at h
        exact progress_flights thread call
          (fun _ hcurrent => (attempt_running (Prod.ext rfl hcurrent)).2) h

/-! ### Runs -/

/-- What holds in every interleaving: the history rises by one version with each transition, what
is under way is unfinished, and nothing began with a word that is not under way. -/
structure Consistent (m : Machine) : Prop where
  newest : ∃ past, m.history = m.word :: past
  counted : m.history.length = m.word.toNat / 8 + 1
  rising : m.history.Pairwise fun newer older => older.toNat < newer.toNat
  begun : ∀ token ∈ m.begun, UnderWay (state token)
  known : UnderWay (state m.word) ∧ m.word ∈ m.unfinished ∨ Settled (state m.word)
  sound : ∀ thread flight, m.flights thread = some flight → m.Sound flight

theorem consistent_initial : Consistent initial where
  newest := ⟨[], rfl⟩
  counted := rfl
  rising := pairwise_singleton _ _
  begun := fun token hmem => by cases hmem
  known := .inr (.inl rfl)
  sound := fun thread flight hflight => by cases hflight

namespace Consistent

section

variable (h : Consistent m)

include h

theorem mem_history : m.word ∈ m.history := by
  obtain ⟨past, hpast⟩ := h.newest
  rw [hpast]
  exact mem_cons_self

/-- No value comes twice. -/
theorem nodup : m.history.Nodup :=
  h.rising.imp fun hlt heq => hlt.ne (congrArg BitVec.toNat heq.symm)

theorem le_word (hmem : token ∈ m.history) : token.toNat ≤ m.word.toNat := by
  obtain ⟨past, hpast⟩ := h.newest
  have hrising := h.rising
  rw [hpast] at hmem hrising
  rcases mem_cons.mp hmem with rfl | hin
  · exact le_rfl
  · exact ((pairwise_cons.mp hrising).1 token hin).le

/-- As long as there are fewer than `2 ^ 61` transitions there is a next version. -/
theorem hasVersion {word : Token} (hhistory : m'.history = word :: m.history)
    (hfew : m'.transitions < 2 ^ 61) : hasVersion m.word = true := by
  have hcounted := h.counted
  rw [transitions, hhistory, length_cons, Nat.add_sub_cancel, hcounted] at hfew
  refine decide_eq_true ?_
  omega

/-- A transition to the next version. -/
theorem advance (htarget : target.toNat < 8) (hversion : Availability.hasVersion m.word = true)
    (hword : m'.word = next m.word target) (hhistory : m'.history = m'.word :: m.history) :
    m'.history.length = m'.word.toNat / 8 + 1 ∧
      m'.history.Pairwise (fun newer older => older.toNat < newer.toNat) ∧
      state m'.word = target := by
  have hlt : m.word.toNat < m'.word.toNat := hword ▸ toNat_lt_next htarget hversion
  refine ⟨?_, ?_, hword ▸ state_next htarget hversion⟩
  · rw [hhistory, length_cons, h.counted, hword, toNat_next htarget hversion]
    omega
  · rw [hhistory]
    exact pairwise_cons.mpr ⟨fun token hmem => (h.le_word hmem).trans_lt hlt, h.rising⟩

theorem change (hchange : Change m m') (hfew : m'.transitions < 2 ^ 61)
    (hflights : ∀ thread flight, m'.flights thread = some flight →
      m.flights thread = some flight ∨ m.Sound flight) : Consistent m' := by
  have hsound : ∀ thread flight, m'.flights thread = some flight → m'.Sound flight := by
    intro thread flight hflight
    refine Sound.mono ?_ hchange.begun_subset
    exact (hflights thread flight hflight).elim (h.sound thread flight) id
  cases hchange with
  | stays hword hhistory hbegun hunfinished =>
    refine ⟨?_, ?_, hhistory ▸ h.rising, hbegun ▸ h.begun, ?_, hsound⟩
    · rw [hhistory, hword]
      exact h.newest
    · rw [hhistory, hword]
      exact h.counted
    · rw [hword]
      exact h.known.imp_left fun hway => ⟨hway.1, hunfinished hway.2⟩
  | begins htarget hword hhistory hbegun hunfinished =>
    obtain ⟨hcounted, hrising, hstate⟩ :=
      h.advance htarget.toNat_lt (h.hasVersion hhistory hfew) hword hhistory
    have hway : UnderWay (state m'.word) := hstate ▸ htarget
    refine ⟨⟨_, hhistory⟩, hcounted, hrising, fun token hmem => ?_, .inl ⟨hway, hunfinished⟩,
      hsound⟩
    rw [hbegun] at hmem
    rcases mem_cons.mp hmem with rfl | hold
    · exact hway
    · exact h.begun token hold
  | ends htarget hword hhistory hbegun =>
    obtain ⟨hcounted, hrising, hstate⟩ :=
      h.advance htarget.toNat_lt (h.hasVersion hhistory hfew) hword hhistory
    exact ⟨⟨_, hhistory⟩, hcounted, hrising, hbegun ▸ h.begun, .inr (hstate ▸ htarget), hsound⟩

theorem perform {action : Action} (hpermits : m.permits action = true) :
    Consistent (m.perform action) := by
  obtain ⟨howns, hfew⟩ := Bool.and_eq_true_iff.mp hpermits
  exact h.change (perform_change h.sound action) (of_decide_eq_true hfew) fun _ _ =>
    perform_flights howns

theorem leads (hleads : m.Leads later) : Consistent later :=
  Run.invariant h (fun _ _ hconsistent hpermits => hconsistent.perform hpermits) hleads

end

end Consistent

theorem Change.suffix (h : Change m m') : m.history <:+ m'.history := by
  cases h with
  | stays _ hhistory _ _ => exact hhistory ▸ suffix_rfl
  | begins _ _ hhistory _ _ | ends _ _ hhistory _ => exact hhistory ▸ suffix_cons _ _

/-- The history is only added to. -/
theorem Leads.suffix (hleads : m.Leads later) (h : Consistent m) : m.history <:+ later.history := by
  have hboth : Consistent later ∧ m.history <:+ later.history := by
    refine Run.invariant (P := fun s => Consistent s ∧ m.history <:+ s.history)
      ⟨h, suffix_rfl⟩ ?_ hleads
    rintro s action ⟨hs, hsuffix⟩ hpermits
    exact ⟨hs.perform hpermits, hsuffix.trans (perform_change hs.sound action).suffix⟩
  exact hboth.2

/-- A word that is current again was current all along. -/
theorem Leads.history_eq (hleads : m.Leads later) (h : Consistent m)
    (hword : m.word = later.word) : m.history = later.history := by
  have hlater := h.leads hleads
  obtain ⟨newer, hnewer⟩ := hleads.suffix h
  obtain ⟨past, hpast⟩ := h.newest
  obtain ⟨past', hpast'⟩ := hlater.newest
  cases newer with
  | nil => exact hnewer
  | cons first rest =>
    -- The newest value would also be an older one.
    have hfirst : first = later.word := (List.cons.inj (hnewer.trans hpast')).1
    have hnodup := hlater.nodup
    rw [← hnewer, cons_append, nodup_cons, hfirst, ← hword] at hnodup
    exact absurd (mem_append_right rest h.mem_history) hnodup.1

/-- A transition happened between two machines. -/
theorem Leads.word_ne (hleads : m'.Leads later) (h' : Consistent m')
    (hhistory : m'.history = m'.word :: m.history) (hmem : token ∈ m.history) :
    later.word ≠ token := by
  rintro rfl
  have hlater := h'.leads hleads
  have hin : later.word ∈ m'.history := hhistory ▸ mem_cons_of_mem _ hmem
  have hle := h'.le_word hin
  have hge := hlater.le_word ((hleads.suffix h').mem h'.mem_history)
  have heq : later.word = m'.word := BitVec.eq_of_toNat_eq (le_antisymm hle hge)
  have hnodup := h'.nodup
  rw [hhistory, nodup_cons, ← heq] at hnodup
  exact hnodup.1 hmem

theorem act_word_token (spurious : Bool) {call : TokenCall}
    (hflight : m.flights thread = some (.started (.token call token))) :
    (m.act thread spurious).word = (call.run token m.word).1 := by
  rw [act, hflight]
  exact write_word _ _

theorem progress_word (thread : Nat) (call : LoopCall)
    (out : Token × RetryLoop.Progress Token Result) :
    (m.progress thread call out).word = out.1 := by
  cases hout : out.2 with
  | running current | returned result =>
    rw [progress, hout]
    exact write_word _ _

/-- Nothing moves the word of a stopping machine. -/
theorem act_word_of_stopping (h : Consistent m) (hstopping : state m.word = stopping)
    (thread : Nat) (spurious : Bool) : (m.act thread spurious).word = m.word := by
  cases hflight : m.flights thread with
  | none => rw [act, hflight]
  | some flight =>
    have hsound := h.sound thread flight hflight
    cases flight with
    | started call =>
      cases call with
      | token call token =>
        rw [act_word_token spurious hflight]
        by_cases heq : m.word = token
        · subst heq
          cases hfinishes : call.finishes with
          | true =>
            -- Nothing began with a stopping word.
            have hway := h.begun m.word (hsound hfinishes)
            rw [hstopping] at hway
            exact absurd hway (Settled.not_underWay (.inr (.inr rfl)))
          | false => exact (call.run_self m.word).2.2 hfinishes hstopping
        · exact call.run_of_ne heq
      | loop call =>
        rw [act, hflight]
        exact progress_word thread call _
    | retrying call current =>
      rw [act, hflight]
      refine (progress_word thread call _).trans ?_
      cases hout : call.loop.attempt current m.word spurious with
      | mk word progress =>
        cases progress with
        | running observed => exact (attempt_running hout).1
        | returned result =>
          have hatomic := atomic_of_attempt hsound hout
          rw [call.loop_atomic] at hatomic
          exact (congrArg Prod.fst hatomic).symm.trans (call.run_of_stopping hstopping)

theorem perform_word_of_stopping (h : Consistent m) (hstopping : state m.word = stopping)
    (action : Action) : (m.perform action).word = m.word := by
  cases action with
  | invoke thread call =>
    rw [perform, invoke]
    split <;> rfl
  | act thread spurious => exact act_word_of_stopping h hstopping thread spurious

theorem Leads.word_of_stopping (hleads : m.Leads later) (h : Consistent m)
    (hstopping : state m.word = stopping) : later.word = m.word := by
  have hboth : Consistent later ∧ later.word = m.word := by
    refine Run.invariant (P := fun s => Consistent s ∧ s.word = m.word) ⟨h, rfl⟩ ?_ hleads
    rintro s action ⟨hs, hword⟩ hpermits
    refine ⟨hs.perform hpermits, ?_⟩
    rw [perform_word_of_stopping hs (hword ▸ hstopping) action, hword]
  exact hboth.2

/-- The lease was invalidated: the exchange went through, and the word moved on. -/
theorem history_of_invalidated (h : Consistent m) {spurious : Bool} {current : Token}
    (hflight : m.flights thread = some (.retrying .invalidateSourceLease current))

    (hreturned : (LoopCall.invalidateSourceLease.loop.attempt current m.word spurious).2 =
      .returned (.flag true)) :
    (m.act thread spurious).history = (m.act thread spurious).word :: m.history := by
  have hatomic := atomic_of_attempt (h.sound thread _ hflight) (Prod.ext rfl hreturned)
  rw [LoopCall.loop_atomic, LoopCall.run, Availability.invalidateSourceLease] at hatomic
  split at hatomic
  · exact absurd (Prod.mk.inj hatomic).2 (by simp)
  have hword : (m.act thread spurious).word = next m.word invalid := by
    rw [act, hflight]
    exact (progress_word thread _ _).trans (Prod.mk.inj hatomic).1.symm
  cases act_change h.sound thread spurious with
  | stays hstays _ _ _ => exact absurd (hword.symm.trans hstays) (next_ne m.word (by decide))
  | begins _ _ hhistory _ _ | ends _ _ hhistory _ => exact hhistory

theorem transitions_ne_iff (h : Change m m') (hconsistent : Consistent m) :
    m'.transitions ≠ m.transitions ↔ m'.history = m'.word :: m.history := by
  have hlength := hconsistent.counted
  cases h with
  | stays _ hhistory _ _ =>
    rw [transitions, transitions, hhistory]
    refine ⟨fun hne => absurd rfl hne, fun heq => ?_⟩
    exact absurd (congrArg List.length heq) (by simp)
  | begins _ _ hhistory _ _ | ends _ _ hhistory _ =>
    refine ⟨fun _ => hhistory, fun _ => ?_⟩
    rw [transitions, transitions, hhistory, length_cons]
    omega

end Machine

/-- **Availability leases are race free.**  In every interleaving of calls on one word:
every transition leaves a value that was never there; a call that holds a token changes the word
only if the token is current, with no transition since; once a lease was invalidated no call with a
token read before changes the word; when everything that began was completed, failed or finished
the word is invalid, ready or stopping; and a stopping word admits no quotes ever after. -/
theorem availability_race_free {m : Machine} (h : Machine.initial.Leads m) :
    (∀ action, m.permits action = true → (m.perform action).transitions ≠ m.transitions →
        ∀ earlier, Machine.initial.Leads earlier → earlier.Leads m →
          (m.perform action).word ≠ earlier.word) ∧
      (∀ thread spurious call token, m.flights thread = some (.started (.token call token)) →
        (m.act thread spurious).word ≠ m.word → m.word = token ∧
          ∀ earlier, Machine.initial.Leads earlier → earlier.Leads m → earlier.word = token →
            earlier.transitions = m.transitions) ∧
      (∀ thread spurious current,
        m.flights thread = some (.retrying .invalidateSourceLease current) →
        (LoopCall.invalidateSourceLease.loop.attempt current m.word spurious).2 =
          .returned (.flag true) →
        m.permits (.act thread spurious) = true →
        ∀ earlier, Machine.initial.Leads earlier → earlier.Leads m →
        ∀ later, (m.act thread spurious).Leads later →
        ∀ thread' spurious' call,
          later.flights thread' = some (.started (.token call earlier.word)) →
          (later.act thread' spurious').word = later.word) ∧
      (m.unfinished = [] →
        state m.word = invalid ∨ state m.word = ready ∨ state m.word = stopping) ∧
      (state m.word = stopping → ∀ later, m.Leads later → isAvailable later.word = false) := by
  have hm := Machine.consistent_initial.leads h
  refine ⟨?_, ?_, ?_, ?_, ?_⟩
  · intro action hpermits hmoved earlier hearlier hleads heq
    have hhistory :=
      (Machine.transitions_ne_iff (Machine.perform_change hm.sound action) hm).mp hmoved
    have hnodup := (hm.perform hpermits).nodup
    have he := Machine.consistent_initial.leads hearlier
    rw [hhistory, heq, nodup_cons] at hnodup
    exact hnodup.1 ((hleads.suffix he).mem he.mem_history)
  · intro thread spurious call token hflight hmoved
    have hcurrent : m.word = token := by
      by_contra hne
      exact hmoved ((Machine.act_word_token spurious hflight).trans (call.run_of_ne hne))
    refine ⟨hcurrent, fun earlier hearlier hleads hword => ?_⟩
    have hsame := hleads.history_eq (Machine.consistent_initial.leads hearlier)
      (hword.trans hcurrent.symm)
    rw [Machine.transitions, Machine.transitions, hsame]
  · intro thread spurious current hflight hreturned hpermits earlier hearlier hleads later hlater
      thread' spurious' call hflight'
    have hhistory := Machine.history_of_invalidated hm hflight hreturned
    have he := Machine.consistent_initial.leads hearlier
    have hne := hlater.word_ne (hm.perform hpermits) hhistory
      ((hleads.suffix he).mem he.mem_history)
    exact (Machine.act_word_token spurious' hflight').trans (call.run_of_ne hne)
  · intro hfinished
    rcases hm.known with ⟨-, hmem⟩ | hsettled
    · rw [hfinished] at hmem
      cases hmem
    · exact hsettled
  · intro hstopping later hlater
    rw [hlater.word_of_stopping hm hstopping, isAvailable, hstopping]
    decide

/-- A word is made ready while another thread stops it: the exchange that was prepared before the
word became ready fails, and the retry stops it. -/
def stoppedWhilePublishing : List Action :=
  [.invoke 0 (.loop .revoke), .invoke 1 (.token .publishIf new), .invoke 2 (.loop .stop),
    .act 2 false, .act 1 false, .act 2 false, .act 0 false, .act 2 false, .act 0 false]

theorem availability_race_free_stopped :
    ∃ m, Machine.initial.Leads m ∧ m.transitions = 2 ∧ state m.word = stopping ∧
      ∀ later, m.Leads later → isAvailable later.word = false := by
  have hchecked : checkAll Machine.perform Machine.permits Machine.initial
      stoppedWhilePublishing = true := by decide +kernel
  have hleads : Machine.initial.Leads
      (stoppedWhilePublishing.foldl Machine.perform Machine.initial) :=
    Run.ofList Machine.permits .refl hchecked
  have hstopping : state (stoppedWhilePublishing.foldl Machine.perform Machine.initial).word =
      stopping := by decide +kernel
  exact ⟨_, hleads, by decide +kernel, hstopping, (availability_race_free hleads).2.2.2.2 hstopping⟩

end Lunarbase.Client.Availability
