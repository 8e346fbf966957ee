import Redline.Cancellation

namespace Redline

namespace Tokens

/-! ## Histories -/

inductive Act where
  | make (name : String)
  | clone (token name : String)
  | cancel (token : String)
  | wait (token future : String)
  | poll (future : String)
  deriving DecidableEq, Repr

def perform (tokens : Tokens) : Act → Tokens
  | .make name => tokens.make name
  | .clone token name => tokens.clone token name
  | .cancel token => tokens.cancel token
  | .wait token future => tokens.wait token future
  | .poll future => (tokens.poll future).2

/-- The tokens after a history, of which the latest act comes first. -/
def after : List Act → Tokens
  | [] => .empty
  | act :: earlier => (after earlier).perform act

def madeIn : List Act → Nat
  | [] => 0
  | .make _ :: earlier => madeIn earlier + 1
  | _ :: earlier => madeIn earlier

/-- The token that a name stands for, counted in the order in which they were made. -/
def namedIn : List Act → String → Option Nat
  | [], _ => none
  | .make name :: earlier, asked =>
      if asked = name then some (madeIn earlier) else namedIn earlier asked
  | .clone token name :: earlier, asked =>
      if asked = name then (namedIn earlier token).or (namedIn earlier asked)
      else namedIn earlier asked
  | _ :: earlier, asked => namedIn earlier asked

/-- A token is cancelled once some name that stood for it was used for it. -/
def Cancelled (number : Nat) : List Act → Prop
  | [] => False
  | .cancel token :: earlier => namedIn earlier token = some number ∨ Cancelled number earlier
  | _ :: earlier => Cancelled number earlier

/-- The future of this name waits for a token, and no poll of it has been answered with ready. -/
inductive Awaits (future : String) (number : Nat) : List Act → Prop
  | wait {earlier : List Act} {token : String} (named : namedIn earlier token = some number) :
      Awaits future number (.wait token future :: earlier)
  | later {earlier : List Act} {act : Act} (awaits : Awaits future number earlier)
      (kept : ∀ token, act = .wait token future → namedIn earlier token = none)
      (unready : act = .poll future → ((after earlier).poll future).1 ≠ .ready) :
      Awaits future number (act :: earlier)

/-! ## One act -/

structure Recalls (tokens : Tokens) (history : List Act) : Prop where
  made : tokens.made = madeIn history
  named : ∀ name, tokens.names.get? name = namedIn history name
  distinct : tokens.names.keys.Nodup
  fired : ∀ number, tokens.isFired number = true ↔ Cancelled number history
  registered : ∀ future number, tokens.waiters.get? future = some ⟨number, .registered⟩ →
    ¬Cancelled number history
  woken : ∀ future number, tokens.waiters.get? future = some ⟨number, .woken⟩ →
    Cancelled number history
  awaited : ∀ future number, Awaits future number history →
    ∃ waiting, tokens.waiters.get? future = some ⟨number, waiting⟩ ∧ waiting ≠ .over

variable {tokens : Tokens} {history : List Act}

theorem Awaits.earlier {future : String} {number : Nat} {act : Act}
    (awaits : Awaits future number (act :: history))
    (other : ∀ token, act ≠ .wait token future) : Awaits future number history := by
  cases awaits with
  | wait named => exact absurd rfl (other _)
  | later awaits => exact awaits

/-- An act that changes nothing is recalled if it means nothing to the history either. -/
theorem Recalls.still (recalls : tokens.Recalls history) {act : Act}
    (made : madeIn (act :: history) = madeIn history)
    (named : ∀ name, namedIn (act :: history) name = namedIn history name)
    (cancelled : ∀ number, Cancelled number (act :: history) ↔ Cancelled number history)
    (awaits : ∀ future number, Awaits future number (act :: history) →
      Awaits future number history) : tokens.Recalls (act :: history) where
  made := recalls.made.trans made.symm
  named name := (recalls.named name).trans (named name).symm
  distinct := recalls.distinct
  fired number := (recalls.fired number).trans (cancelled number).symm
  registered future number found :=
    mt (cancelled number).mp (recalls.registered future number found)
  woken future number found := (cancelled number).mpr (recalls.woken future number found)
  awaited future number waits := recalls.awaited future number (awaits future number waits)

theorem Recalls.make (recalls : tokens.Recalls history) (name : String) :
    (tokens.make name).Recalls (.make name :: history) where
  made := congrArg (· + 1) recalls.made
  named asked := by
    show (tokens.names.set name tokens.made).get? asked = _
    rw [Table.get?_set, recalls.made, recalls.named]
    rfl
  distinct := Table.nodup_keys_set recalls.distinct name tokens.made
  fired := recalls.fired
  registered := recalls.registered
  woken := recalls.woken
  awaited future number awaits := recalls.awaited future number (awaits.earlier (by simp))

theorem Recalls.clone (recalls : tokens.Recalls history) (token name : String) :
    (tokens.clone token name).Recalls (.clone token name :: history) := by
  have known := recalls.named token
  rw [Tokens.clone]
  cases found : tokens.names.get? token with
  | none =>
      rw [found] at known
      refine recalls.still rfl ?_ (fun _ => .rfl) fun _ _ awaits => awaits.earlier (by simp)
      intro asked
      rw [namedIn, ← known, Option.none_or, ite_self]
  | some number =>
      rw [found] at known
      exact {
        made := recalls.made
        named := fun asked => by
          rw [namedIn, ← known, Option.some_or, Table.get?_set, recalls.named]
        distinct := Table.nodup_keys_set recalls.distinct name number
        fired := recalls.fired
        registered := recalls.registered
        woken := recalls.woken
        awaited := fun future number awaits =>
          recalls.awaited future number (awaits.earlier (by simp)) }

theorem wake_eq_registered {waiter : Waiter} {number other : Nat} :
    Waiter.wake number waiter = ⟨other, .registered⟩ ↔
      waiter = ⟨other, .registered⟩ ∧ other ≠ number := by
  rcases waiter with ⟨token, waiting⟩
  rw [Waiter.wake]
  split <;> grind

theorem wake_eq_woken {waiter : Waiter} {number other : Nat} :
    Waiter.wake number waiter = ⟨other, .woken⟩ ↔
      waiter = ⟨other, .woken⟩ ∨ waiter = ⟨number, .registered⟩ ∧ other = number := by
  rcases waiter with ⟨token, waiting⟩
  rw [Waiter.wake]
  split <;> grind

theorem wake_kept {number other : Nat} {waiting : Waiting} (goes : waiting ≠ .over) :
    ∃ next, Waiter.wake number ⟨other, waiting⟩ = ⟨other, next⟩ ∧ next ≠ .over := by
  rw [Waiter.wake]
  split
  · exact ⟨.woken, rfl, by decide⟩
  · exact ⟨waiting, rfl, goes⟩

theorem Recalls.fire (recalls : tokens.Recalls history) {token : String} {fired : Nat}
    (named : namedIn history token = some fired) :
    (tokens.fire fired).Recalls (.cancel token :: history) := by
  have more (number : Nat) : Cancelled number (.cancel token :: history) ↔
      fired = number ∨ Cancelled number history := by
    rw [Cancelled, named, Option.some.injEq]
  have awaits (future : String) (number : Nat)
      (awaits : Awaits future number (.cancel token :: history)) := awaits.earlier (by simp)
  rw [Tokens.fire]
  split
  · rename_i again
    -- The token has fired before, so cancelling it again tells nothing new.
    refine recalls.still rfl (fun _ => rfl) ?_ awaits
    intro number
    rw [more]
    refine ⟨?_, .inr⟩
    rintro (rfl | cancelled)
    · exact (recalls.fired _).mp again
    · exact cancelled
  · refine ⟨recalls.made, recalls.named, recalls.distinct, ?_, ?_, ?_, ?_⟩
    · intro number
      rw [more, ← recalls.fired]
      simp only [isFired, decide_eq_true_eq, List.mem_cons, @eq_comm _ number]
    · intro future number found
      rw [Table.get?_mapValues, Option.map_eq_some_iff] at found
      rcases found with ⟨waiter, found, slept⟩
      rcases wake_eq_registered.mp slept with ⟨rfl, other⟩
      rw [more]
      rintro (same | cancelled)
      · exact other same.symm
      · exact recalls.registered future number found cancelled
    · intro future number found
      rw [Table.get?_mapValues, Option.map_eq_some_iff] at found
      rcases found with ⟨waiter, found, awake⟩
      rw [more]
      rcases wake_eq_woken.mp awake with rfl | ⟨rfl, rfl⟩
      · exact .inr (recalls.woken future number found)
      · exact .inl rfl
    · intro future number waits
      rcases recalls.awaited future number (awaits future number waits) with ⟨waiting, found, goes⟩
      rcases @wake_kept fired number waiting goes with ⟨next, woken, goes⟩
      exact ⟨next, by rw [Table.get?_mapValues, found, Option.map_some, woken], goes⟩

theorem Recalls.cancel (recalls : tokens.Recalls history) (token : String) :
    (tokens.cancel token).Recalls (.cancel token :: history) := by
  have known := recalls.named token
  rw [Tokens.cancel]
  cases found : tokens.names.get? token with
  | none =>
      rw [found] at known
      refine recalls.still rfl (fun _ => rfl) ?_ fun _ _ awaits => awaits.earlier (by simp)
      intro number
      simp [Cancelled, ← known]
  | some number =>
      rw [found] at known
      exact recalls.fire known.symm

theorem Recalls.wait (recalls : tokens.Recalls history) (token future : String) :
    (tokens.wait token future).Recalls (.wait token future :: history) := by
  have known := recalls.named token
  rw [Tokens.wait]
  cases found : tokens.names.get? token with
  | none =>
      rw [found] at known
      refine recalls.still rfl (fun _ => rfl) (fun _ => .rfl) ?_
      intro other number awaits
      cases awaits with
      | wait named => simp [← known] at named
      | later awaits => exact awaits
  | some number =>
      rw [found] at known
      refine ⟨recalls.made, recalls.named, recalls.distinct, recalls.fired, ?_, ?_, ?_⟩
      · intro other asked found
        rw [Table.get?_set] at found
        split at found
        · simp at found
        · exact recalls.registered other asked found
      · intro other asked found
        rw [Table.get?_set] at found
        split at found
        · simp at found
        · exact recalls.woken other asked found
      · intro other asked awaits
        rw [Table.get?_set]
        cases awaits with
        | wait named =>
            rw [← known, Option.some.injEq] at named
            exact ⟨.unasked, by rw [if_pos rfl, named], by decide⟩
        | later awaits kept =>
            have different : other ≠ future := by
              rintro rfl
              simp [← known] at kept
            rw [if_neg different]
            exact recalls.awaited other asked awaits

theorem Recalls.setWaiting (recalls : tokens.Recalls history) {future : String} {waiter : Waiter}
    {waiting : Waiting} (found : tokens.waiters.get? future = some waiter)
    (asleep : waiting = .registered → ¬Cancelled waiter.token history)
    (unwoken : waiting ≠ .woken)
    (done : waiting = .over → ((after history).poll future).1 = .ready) :
    (tokens.setWaiting future waiter waiting).Recalls (.poll future :: history) := by
  refine ⟨recalls.made, recalls.named, recalls.distinct, recalls.fired, ?_, ?_, ?_⟩
  · intro other number found
    simp only [Tokens.setWaiting] at found
    rw [Table.get?_set] at found
    split at found
    · cases found
      exact asleep rfl
    · exact recalls.registered other number found
  · intro other number found
    simp only [Tokens.setWaiting] at found
    rw [Table.get?_set] at found
    split at found
    · cases found
      exact absurd rfl unwoken
    · exact recalls.woken other number found
  · intro other number awaits
    simp only [Tokens.setWaiting]
    rw [Table.get?_set]
    cases awaits with
    | later awaits _ unready =>
        rcases recalls.awaited other number awaits with ⟨before, known, goes⟩
        split
        · rename_i same
          subst same
          cases found.symm.trans known
          exact ⟨waiting, rfl, fun ended => unready rfl (done ended)⟩
        · exact ⟨before, known, goes⟩

theorem Recalls.poll (recalls : (after history).Recalls history) (future : String) :
    ((after history).poll future).2.Recalls (.poll future :: history) := by
  have still : (after history).Recalls (.poll future :: history) :=
    recalls.still rfl (fun _ => rfl) (fun _ => .rfl) fun _ _ awaits => awaits.earlier (by simp)
  cases found : (after history).waiters.get? future with
  | none =>
      simp only [Tokens.poll, found]
      exact still
  | some waiter =>
      rcases waiter with ⟨number, waiting⟩
      cases waiting with
      | unasked =>
          by_cases fired : (after history).isFired number
          · have answer : (after history).poll future =
                (.ready, (after history).setWaiting future ⟨number, .unasked⟩ .over) := by
              simp [Tokens.poll, found, fired]
            rw [answer]
            exact recalls.setWaiting found (by simp) (by simp) fun _ => by rw [answer]
          · have answer : (after history).poll future =
                (.pending, (after history).setWaiting future ⟨number, .unasked⟩ .registered) := by
              simp [Tokens.poll, found, fired]
            rw [answer]
            exact recalls.setWaiting found (fun _ => mt (recalls.fired number).mpr fired) (by simp)
              (by simp)
      | woken =>
          have answer : (after history).poll future =
              (.ready, (after history).setWaiting future ⟨number, .woken⟩ .over) := by
            simp [Tokens.poll, found]
          rw [answer]
          exact recalls.setWaiting found (by simp) (by simp) fun _ => by rw [answer]
      | _ =>
          simp only [Tokens.poll, found]
          exact still

/-! ## All histories -/

theorem recalls_after (history : List Act) : (after history).Recalls history := by
  induction history with
  | nil =>
      exact {
        made := rfl
        named := fun _ => rfl
        distinct := List.nodup_nil
        fired := fun number => by simp [after, Tokens.empty, isFired, Cancelled]
        registered := by simp [after, Tokens.empty]
        woken := by simp [after, Tokens.empty]
        awaited := by rintro _ _ ⟨⟩ }
  | cons act history ih =>
      cases act with
      | make name => exact ih.make name
      | clone token name => exact ih.clone token name
      | cancel token => exact ih.cancel token
      | wait token future => exact ih.wait token future
      | poll future => exact ih.poll future

theorem poll_awaited {future : String} {number : Nat} (awaits : Awaits future number history) :
    (((after history).poll future).1 = .ready ↔ Cancelled number history) ∧
      (((after history).poll future).1 = .pending ↔ ¬Cancelled number history) := by
  have recalls := recalls_after history
  rcases recalls.awaited future number awaits with ⟨waiting, found, goes⟩
  cases waiting with
  | unasked =>
      rw [← recalls.fired number]
      simp only [Tokens.poll, found]
      split <;> simp_all
  | registered =>
      have calm := recalls.registered future number found
      simp [Tokens.poll, found, calm]
  | woken =>
      have cancelled := recalls.woken future number found
      simp [Tokens.poll, found, cancelled]
  | _ => exact absurd rfl goes

theorem mem_states {name : String} {shown : Bool} :
    (name, shown) ∈ (after history).states ↔
      ∃ number, namedIn history name = some number ∧ (shown = true ↔ Cancelled number history) := by
  have recalls := recalls_after history
  rw [states, List.mem_map]
  constructor
  · rintro ⟨⟨other, number⟩, member, same⟩
    cases same
    rw [Table.mem_entries _ recalls.distinct, recalls.named] at member
    exact ⟨number, member, recalls.fired number⟩
  · rintro ⟨number, named, same⟩
    refine ⟨(name, number), ?_, ?_⟩
    · rw [Table.mem_entries _ recalls.distinct, recalls.named]
      exact named
    · rw [← recalls.fired number] at same
      exact congrArg (name, ·) (Bool.eq_iff_iff.mpr same.symm)

theorem cancelled_later {number : Nat} (later : List Act) (cancelled : Cancelled number history) :
    Cancelled number (later ++ history) := by
  induction later with
  | nil => exact cancelled
  | cons act later ih =>
      cases act with
      | cancel token => exact .inr ih
      | _ => exact ih

theorem cancel_again {name : String} {number : Nat} (named : namedIn history name = some number)
    (cancelled : Cancelled number history) : after (.cancel name :: history) = after history := by
  have recalls := recalls_after history
  have found := (recalls.named name).trans named
  simp only [after, perform, Tokens.cancel, found]
  exact if_pos ((recalls.fired number).mpr cancelled)

/-! ## Other tokens -/

/-- Whether an act uses other tokens than this one: it cancels another one, asks a future that
does not wait for this one, or lets such a future wait for another one. -/
def Elsewhere (number : Nat) (history : List Act) : Act → Prop
  | .cancel token => namedIn history token ≠ some number
  | .wait token future => namedIn history token ≠ some number ∧ ¬Awaits future number history
  | .poll future => ¬Awaits future number history
  | _ => False

structure Alike (number : Nat) (first second : List Act) : Prop where
  made : madeIn first = madeIn second
  named : ∀ name, namedIn first name = namedIn second name
  cancelled : Cancelled number first ↔ Cancelled number second
  awaits : ∀ future, Awaits future number first ↔ Awaits future number second

theorem Alike.symm {number : Nat} {first second : List Act} (alike : Alike number first second) :
    Alike number second first where
  made := alike.made.symm
  named name := (alike.named name).symm
  cancelled := alike.cancelled.symm
  awaits future := (alike.awaits future).symm

theorem Elsewhere.alike {number : Nat} {act : Act} (elsewhere : Elsewhere number history act) :
    Alike number (act :: history) history := by
  cases act with
  | make name => exact elsewhere.elim
  | clone token name => exact elsewhere.elim
  | cancel token =>
      have other : namedIn history token ≠ some number := elsewhere
      refine ⟨rfl, fun _ => rfl, by simp [Cancelled, other], fun future => ⟨?_, ?_⟩⟩
      · exact fun awaits => awaits.earlier (by simp)
      · exact fun awaits => .later awaits (by simp) (by simp)
  | wait token future =>
      rcases elsewhere with ⟨other, unasked⟩
      refine ⟨rfl, fun _ => rfl, .rfl, fun asked => ⟨fun awaits => ?_, fun awaits => ?_⟩⟩
      · cases awaits with
        | wait named => exact absurd named other
        | later awaits => exact awaits
      · refine .later awaits ?_ (by simp)
        rintro _ ⟨⟩
        exact absurd awaits unasked
  | poll future =>
      refine ⟨rfl, fun _ => rfl, .rfl, fun asked => ⟨fun awaits => ?_, fun awaits => ?_⟩⟩
      · exact awaits.earlier (by simp)
      · refine .later awaits (by simp) ?_
        rintro ⟨⟩
        exact absurd awaits elsewhere

theorem Alike.poll {number : Nat} {first second : List Act} (alike : Alike number first second)
    {future : String} (awaits : Awaits future number first) :
    ((after first).poll future).1 = ((after second).poll future).1 := by
  have answer := poll_awaited awaits
  have other := poll_awaited ((alike.awaits future).mp awaits)
  by_cases cancelled : Cancelled number first
  · rw [answer.1.mpr cancelled, other.1.mpr (alike.cancelled.mp cancelled)]
  · rw [answer.2.mpr cancelled, other.2.mpr (mt alike.cancelled.mpr cancelled)]

theorem Alike.awaits_cons {number : Nat} {first second : List Act}
    (alike : Alike number first second) {act : Act} {future : String}
    (awaits : Awaits future number (act :: first)) : Awaits future number (act :: second) := by
  cases awaits with
  | wait named => exact .wait ((alike.named _).symm.trans named)
  | later awaits kept unready =>
      refine .later ((alike.awaits future).mp awaits) ?_ ?_
      · exact fun token same => (alike.named token).symm.trans (kept token same)
      · intro same
        rw [← alike.poll awaits]
        exact unready same

theorem Alike.cons {number : Nat} {first second : List Act} (alike : Alike number first second)
    (act : Act) : Alike number (act :: first) (act :: second) where
  made := by cases act <;> simp only [madeIn, alike.made]
  named name := by cases act <;> simp only [namedIn, alike.named, alike.made]
  cancelled := by cases act <;> simp only [Cancelled, alike.named, alike.cancelled]
  awaits _ := ⟨alike.awaits_cons, alike.symm.awaits_cons⟩

theorem Elsewhere.alike_later {number : Nat} {act : Act}
    (elsewhere : Elsewhere number history act) (later : List Act) :
    Alike number (later ++ act :: history) (later ++ history) := by
  induction later with
  | nil => exact elsewhere.alike
  | cons next later ih => exact ih.cons next

theorem lt_madeIn {name : String} {number : Nat} (named : namedIn history name = some number) :
    number < madeIn history := by
  induction history generalizing name with
  | nil => cases named
  | cons act history ih =>
      cases act with
      | make fresh =>
          rw [namedIn] at named
          rw [madeIn]
          split at named
          · cases named
            exact Nat.lt_succ_self _
          · exact Nat.lt_succ_of_lt (ih named)
      | clone token fresh =>
          rw [namedIn] at named
          split at named
          · rcases Option.or_eq_some_iff.mp named with named | ⟨_, named⟩
            · exact ih named
            · exact ih named
          · exact ih named
      | _ => exact ih named

theorem Cancelled.lt_madeIn {number : Nat} (cancelled : Cancelled number history) :
    number < madeIn history := by
  induction history with
  | nil => exact cancelled.elim
  | cons act history ih =>
      cases act with
      | make name => exact Nat.lt_succ_of_lt (ih cancelled)
      | cancel token => exact cancelled.elim Tokens.lt_madeIn ih
      | _ => exact ih cancelled

/-- A future that was not ready is ready exactly if its token was cancelled through some name, at
whatever time. A second cancel does nothing, all names of a token show the same, which is never
taken back, and what is done with other tokens could as well be left out. -/
theorem wakes_exactly_if_cancelled (history : List Act) :
    (∀ future number, Awaits future number history →
      (((after history).poll future).1 = .ready ↔ Cancelled number history) ∧
      (((after history).poll future).1 = .pending ↔ ¬Cancelled number history)) ∧
    (∀ name number, namedIn history name = some number → Cancelled number history →
      after (.cancel name :: history) = after history) ∧
    (∀ name shown, (name, shown) ∈ (after history).states ↔
      ∃ number, namedIn history name = some number ∧ (shown = true ↔ Cancelled number history)) ∧
    (∀ later name other number, namedIn history name = some number →
      namedIn (later ++ history) other = some number → (name, true) ∈ (after history).states →
      (other, true) ∈ (after (later ++ history)).states) ∧
    ¬Cancelled (madeIn history) history ∧
    ∀ later act number, Elsewhere number history act →
      (∀ future, Awaits future number (later ++ act :: history) ↔
        Awaits future number (later ++ history)) ∧
      (∀ future, Awaits future number (later ++ history) →
        ((after (later ++ act :: history)).poll future).1 =
          ((after (later ++ history)).poll future).1) ∧
      ∀ name, namedIn (later ++ history) name = some number →
        ∀ shown, (name, shown) ∈ (after (later ++ act :: history)).states ↔
          (name, shown) ∈ (after (later ++ history)).states := by
  refine ⟨fun future number => poll_awaited, fun name number => cancel_again,
    fun name shown => mem_states, ?_, fun cancelled => Nat.lt_irrefl _ cancelled.lt_madeIn, ?_⟩
  · intro later name other number named renamed shown
    rcases mem_states.mp shown with ⟨known, found, cancelled⟩
    cases found.symm.trans named
    exact mem_states.mpr ⟨number, renamed,
      fun _ => cancelled_later later (cancelled.mp rfl), fun _ => rfl⟩
  · intro later act number elsewhere
    have alike := elsewhere.alike_later later
    refine ⟨alike.awaits, fun future awaits => ?_, fun name named shown => ?_⟩
    · exact alike.poll ((alike.awaits future).mpr awaits)
    · rw [mem_states, mem_states]
      simp only [alike.named, named, Option.some.injEq, exists_eq_left', alike.cancelled]

/-- A token with a clone and another token; a future was asked before any cancel. -/
def twoTokens : List Act :=
  [.poll "early", .wait "clone" "early", .clone "token" "clone", .make "other", .make "token"]

theorem twoTokens_awaits : Awaits "early" 0 twoTokens :=
  .later (.wait rfl) (by simp) fun _ => by decide

theorem twoTokens_wake :
    ((after twoTokens).poll "early").1 = .pending ∧
      ((after (.cancel "token" :: twoTokens)).poll "early").1 = .ready ∧
      after (.cancel "clone" :: .cancel "token" :: twoTokens) =
        after (.cancel "token" :: twoTokens) ∧
      ("clone", true) ∈ (after ([.poll "early"] ++ .cancel "token" :: twoTokens)).states ∧
      ((after ([] ++ .cancel "other" :: twoTokens)).poll "early").1 =
        ((after ([] ++ twoTokens)).poll "early").1 := by
  rcases wakes_exactly_if_cancelled twoTokens with ⟨polls, _, _, _, _, elsewhere⟩
  rcases wakes_exactly_if_cancelled (.cancel "token" :: twoTokens) with
    ⟨pollsLater, again, shows, stays, _, _⟩
  have calm : ¬Cancelled 0 twoTokens := by simp [Cancelled, twoTokens]
  have cancelled : Cancelled 0 (.cancel "token" :: twoTokens) := .inl (by decide)
  have waits : Awaits "early" 0 (.cancel "token" :: twoTokens) :=
    .later twoTokens_awaits (by simp) (by simp)
  refine ⟨?_, ?_, ?_, ?_, ?_⟩
  · exact (polls _ _ twoTokens_awaits).2.mpr calm
  · exact (pollsLater _ _ waits).1.mpr cancelled
  · exact again "clone" 0 (by decide) cancelled
  · apply stays _ "token" "clone" 0 (by decide) (by decide)
    exact (shows _ _).mpr ⟨0, by decide, by simp [cancelled]⟩
  · exact (elsewhere [] (.cancel "other") 0 (by simp [Elsewhere, twoTokens, namedIn, madeIn])).2.1
      _ twoTokens_awaits

end Tokens

end Redline
