import Mathlib.Data.List.Chain
import Redline.Proofs.Managing

namespace Redline

/-- A status and the overlay that goes with it. They agree on how many blocks are unresolved. -/
structure Bulletin where
  update : StatusUpdate
  overlay : Overlay
  agrees : update.unresolved = overlay.blocks.length
  deriving DecidableEq, Repr

namespace Bulletin

def events (bulletin : Bulletin) : List Event :=
  [.status bulletin.update, .overlay bulletin.update.buffer bulletin.overlay]

theorem length_events (told : List Bulletin) :
    (told.flatMap events).length = told.length * 2 := by
  simp [List.length_flatMap, events]

structure Describes (bulletin : Bulletin) (manager : Manager) (opened : Opened) : Prop where
  found : manager.sessions.get? bulletin.update.stream = some opened
  buffer : bulletin.update.buffer = opened.session.bufferId
  text : bulletin.update.text = (manager.document opened.document).text
  unresolved : bulletin.update.unresolved = opened.session.registry.blocks.length
  overlay : bulletin.overlay = opened.session.overlay

def ofStream (stream : StreamId) (bulletins : List Bulletin) : List Bulletin :=
  bulletins.filter fun bulletin => bulletin.update.stream = stream

def Follows (before after : Bulletin) : Prop :=
  if after.update.status = .streaming then
    after.update.unresolved = before.update.unresolved ∨
      after.update.unresolved = before.update.unresolved + 1
  else after.update.unresolved ≤ before.update.unresolved

/-- What one stream may say: how it goes line by line, then how its review goes, and in the end,
once, that it is closed. -/
structure Protocol (said : List Bulletin) : Prop where
  word : ∃ lines reviews ends, ends ≤ 1 ∧ said.map (fun bulletin => bulletin.update.status) =
    List.replicate lines .streaming ++ List.replicate reviews .done ++
      List.replicate ends .closed
  chain : said.IsChain Follows
  review : ∀ bulletin ∈ said, bulletin.update.status = .done → 1 ≤ bulletin.update.unresolved
  finale : ∀ bulletin ∈ said, bulletin.update.status = .closed →
    bulletin.update.unresolved = 0 ∧ bulletin.overlay = .empty

inductive Spoken : SessionState → Nat → List Bulletin → Prop where
  | opened : Spoken .streaming 0 []
  | line {count : Nat} {said : List Bulletin} {bulletin : Bulletin} :
      Spoken .streaming count said → bulletin.update.status = .streaming →
      bulletin.update.unresolved = count ∨ bulletin.update.unresolved = count + 1 →
      Spoken .streaming bulletin.update.unresolved (said ++ [bulletin])
  | review {state : SessionState} {count : Nat} {said : List Bulletin} {bulletin : Bulletin} :
      Spoken state count said → state ≠ .idle → bulletin.update.status = .done →
      1 ≤ bulletin.update.unresolved → bulletin.update.unresolved ≤ count →
      Spoken .reviewing bulletin.update.unresolved (said ++ [bulletin])
  | finale {state : SessionState} {count : Nat} {said : List Bulletin} {bulletin : Bulletin} :
      Spoken state count said → state ≠ .idle → bulletin.update.status = .closed →
      bulletin.update.unresolved = 0 → bulletin.overlay = .empty →
      Spoken .idle 0 (said ++ [bulletin])
  | superseded {state : SessionState} {count : Nat} {said : List Bulletin} :
      Spoken state count said → Spoken .idle 0 said

variable {state : SessionState} {count : Nat} {said : List Bulletin}

theorem Spoken.last (spoken : Spoken state count said) (live : state ≠ .idle)
    {bulletin : Bulletin} (final : said.getLast? = some bulletin) :
    bulletin.update.unresolved = count := by
  cases spoken with
  | opened => cases final
  | line _ _ _ | review _ _ _ _ _ =>
      rw [List.getLast?_concat] at final
      rw [← Option.some.inj final]
  | finale _ _ _ _ _ => exact absurd rfl live
  | superseded _ => exact absurd rfl live

theorem Spoken.chain (spoken : Spoken state count said) : said.IsChain Follows := by
  have extend {state : SessionState} {count : Nat} {said : List Bulletin} {next : Bulletin}
      (spoken : Spoken state count said) (live : state ≠ .idle) (chain : said.IsChain Follows)
      (follows : ∀ bulletin, bulletin.update.unresolved = count → Follows bulletin next) :
      (said ++ [next]).IsChain Follows := by
    refine List.isChain_append.mpr ⟨chain, .singleton next, fun bulletin final other first => ?_⟩
    rw [← Option.some.inj first]
    exact follows bulletin (spoken.last live final)
  induction spoken with
  | opened => exact .nil
  | line before status grows ih =>
      refine extend before (by decide) ih fun bulletin same => ?_
      rw [Follows, if_pos status, same]
      exact grows
  | review before live status _ fewer ih =>
      refine extend before live ih fun bulletin same => ?_
      rw [Follows, if_neg (by simp [status]), same]
      exact fewer
  | finale before live status none _ ih =>
      refine extend before live ih fun bulletin same => ?_
      rw [Follows, if_neg (by simp [status]), none]
      exact Nat.zero_le _
  | superseded _ ih => exact ih

theorem Spoken.open_word (spoken : Spoken state count said) (live : state ≠ .idle) :
    ∃ lines reviews, (state = .streaming → reviews = 0) ∧
      said.map (fun bulletin => bulletin.update.status) =
        List.replicate lines .streaming ++ List.replicate reviews .done := by
  induction spoken with
  | opened => exact ⟨0, 0, fun _ => rfl, rfl⟩
  | line _ status _ ih =>
      rcases ih live with ⟨lines, reviews, none, word⟩
      rw [none rfl, List.replicate_zero, List.append_nil] at word
      refine ⟨lines + 1, 0, fun _ => rfl, ?_⟩
      rw [List.map_append, word, List.replicate_succ']
      simp [status]
  | review _ before status _ _ ih =>
      rcases ih before with ⟨lines, reviews, _, word⟩
      refine ⟨lines, reviews + 1, fun streaming => SessionState.noConfusion streaming, ?_⟩
      rw [List.map_append, word, List.replicate_succ', ← List.append_assoc]
      simp [status]
  | finale _ _ _ _ _ _ => exact absurd rfl live
  | superseded _ _ => exact absurd rfl live

theorem Spoken.word (spoken : Spoken state count said) :
    ∃ lines reviews ends, ends ≤ 1 ∧ said.map (fun bulletin => bulletin.update.status) =
      List.replicate lines .streaming ++ List.replicate reviews .done ++
        List.replicate ends .closed := by
  have unended {state : SessionState} {count : Nat} {said : List Bulletin}
      (spoken : Spoken state count said) (live : state ≠ .idle) :
      ∃ lines reviews ends, ends ≤ 1 ∧ said.map (fun bulletin => bulletin.update.status) =
        List.replicate lines .streaming ++ List.replicate reviews .done ++
          List.replicate ends .closed := by
    rcases spoken.open_word live with ⟨lines, reviews, _, word⟩
    exact ⟨lines, reviews, 0, Nat.zero_le 1, by rw [word, List.replicate_zero, List.append_nil]⟩
  induction spoken with
  | opened => exact unended .opened (by decide)
  | line before status grows _ => exact unended (.line before status grows) (by decide)
  | review before live status some fewer _ =>
      exact unended (.review before live status some fewer) (by decide)
  | finale before live status _ _ _ =>
      rcases before.open_word live with ⟨lines, reviews, _, word⟩
      refine ⟨lines, reviews, 1, Nat.le_refl 1, ?_⟩
      rw [List.map_append, word]
      simp [status]
  | superseded _ ih => exact ih

theorem Spoken.done_unresolved (spoken : Spoken state count said) : ∀ bulletin ∈ said,
    bulletin.update.status = .done → 1 ≤ bulletin.update.unresolved := by
  induction spoken with
  | opened => simp
  | line _ status _ ih | finale _ _ status _ _ ih =>
      intro bulletin member done
      rcases List.mem_append.mp member with old | new
      · exact ih bulletin old done
      · rw [List.mem_singleton.mp new, status] at done
        cases done
  | review _ _ _ some _ ih =>
      intro bulletin member done
      rcases List.mem_append.mp member with old | new
      · exact ih bulletin old done
      · rw [List.mem_singleton.mp new]
        exact some
  | superseded _ ih => exact ih

theorem Spoken.closed_empty (spoken : Spoken state count said) : ∀ bulletin ∈ said,
    bulletin.update.status = .closed →
      bulletin.update.unresolved = 0 ∧ bulletin.overlay = .empty := by
  induction spoken with
  | opened => simp
  | line _ status _ ih | review _ _ status _ _ ih =>
      intro bulletin member closed
      rcases List.mem_append.mp member with old | new
      · exact ih bulletin old closed
      · rw [List.mem_singleton.mp new, status] at closed
        cases closed
  | finale _ _ _ none empty ih =>
      intro bulletin member closed
      rcases List.mem_append.mp member with old | new
      · exact ih bulletin old closed
      · rw [List.mem_singleton.mp new]
        exact ⟨none, empty⟩
  | superseded _ ih => exact ih

theorem Spoken.protocol (spoken : Spoken state count said) : Protocol said :=
  ⟨spoken.word, spoken.chain, spoken.done_unresolved, spoken.closed_empty⟩

theorem Protocol.silent : Protocol [] := Spoken.opened.protocol

end Bulletin

namespace Session

def bulletin (session : Session) (buffer : Buffer) (status : Status) : Bulletin :=
  ⟨session.statusUpdate buffer status, session.overlay, rfl⟩

theorem events_bulletin (session : Session) (buffer : Buffer) (status : Status) :
    [session.bulletin buffer status].flatMap Bulletin.events = session.announce buffer status := rfl

def unresolved (session : Session) : Nat := session.registry.blocks.length

/-- What a session says when it acts, and what has become of its blocks. It says nothing as long as
neither its state nor their number changes. -/
inductive Speaks (session next : Session) (after : Buffer) : List Bulletin → Prop where
  | nothing : next.state = session.state → next.unresolved = session.unresolved →
      Speaks session next after []
  | line : session.state = .streaming → next.state = .streaming →
      next.unresolved = session.unresolved ∨ next.unresolved = session.unresolved + 1 →
      Speaks session next after [next.bulletin after .streaming]
  | review : session.state ≠ .idle → next.state = .reviewing → 1 ≤ next.unresolved →
      next.unresolved ≤ session.unresolved → Speaks session next after [next.bulletin after .done]
  | finale : session.state ≠ .idle → next.state = .idle → next.overlay = .empty →
      Speaks session next after [next.bulletin after .closed]

variable {session next : Session} {draft : List Passage} {buffer after : Buffer}
  {events : List Event}

theorem Speaks.refuse (session : Session) (buffer : Buffer) : session.Speaks session buffer [] :=
  .nothing rfl rfl

theorem Speaks.close (live : session.state ≠ .idle) (other : Session) (after : Buffer) :
    session.Speaks (other.close after).1 after [(other.close after).1.bulletin after .closed] :=
  .finale live rfl rfl

def Tells (session next : Session) (after : Buffer) (events : List Event) : Prop :=
  ∃ said, events = said.flatMap Bulletin.events ∧ session.Speaks next after said

theorem Tells.quiet (session : Session) (buffer : Buffer) : session.Tells session buffer [] :=
  ⟨[], rfl, .refuse session buffer⟩

theorem Tells.close (live : session.state ≠ .idle) (other : Session) (after : Buffer) :
    session.Tells (other.close after).1 after (other.close after).2 :=
  ⟨_, rfl, .close live other after⟩

theorem beginRun_tells (begun : session.beginRun = .ok next) :
    session.Tells next buffer [] := by
  rcases beginRun_eq_ok begun with ⟨_, _, _, rfl⟩
  exact ⟨[], rfl, .nothing rfl rfl⟩

theorem Coherent.line_tells (coherent : session.Coherent) {line : DiffLine} {turn : Turn Unit}
    (applied : session.applyLine buffer line = .ok turn) :
    session.Tells turn.session turn.buffer turn.events := by
  cases coherent.takes applied with
  | refused => exact .quiet session buffer
  | recorded state _ streams continues grows =>
      refine ⟨_, (events_bulletin _ _ _).symm, .line state state ?_⟩
      rw [unresolved, unresolved, continues.tracks.length_blocks, streams.tracks.length_blocks]
      exact grows.count

theorem ended_tells (session : Session) (buffer : Buffer) :
    session.Tells (session.ended buffer) buffer (session.finish buffer).2 := by
  rw [ended]
  by_cases state : session.state = .streaming
  · have live : session.state ≠ .idle := by simp [state]
    rcases finish_streaming state buffer with ⟨_, closed⟩ | ⟨some, _, rfl, reviewed⟩
    · rw [closed]
      exact ⟨_, rfl, .finale live rfl rfl⟩
    · rw [reviewed]
      exact ⟨_, rfl, .review live rfl (List.length_pos_iff.mpr some) (Nat.le_refl _)⟩
  · rw [finish_settled state]
    exact ⟨[], rfl, .nothing rfl rfl⟩

theorem Tracks.concluded_tells (tracks : session.Tracks draft)
    (state : session.state = .reviewing) {later : List Passage}
    (retracks : (session.redraft later).Tracks later)
    (fewer : (Draft.ids later).Sublist (Draft.ids draft)) (after : Buffer) :
    session.Tells ((session.redraft later).concluded after).1 after
      ((session.redraft later).concluded after).2 := by
  have live : session.state ≠ .idle := by simp [state]
  rw [Session.concluded]
  split
  · exact .close live _ after
  · rename_i some
    have left := Nat.one_le_iff_ne_zero.mpr some
    refine ⟨_, (events_bulletin _ _ _).symm, .review live state left ?_⟩
    rw [unresolved, unresolved, retracks.length_blocks, tracks.length_blocks]
    exact fewer.length_le

theorem Coherent.resolve_tells (coherent : session.Coherent) {id : BlockId} {accept : Bool}
    {turn : Turn Resolution} (resolved : session.resolve buffer id accept = .ok turn) :
    session.Tells turn.session turn.buffer turn.events := by
  cases coherent.decides resolved with
  | refused => exact .quiet session buffer
  | settled state _ tracks retracks fewer => exact tracks.concluded_tells state retracks fewer _

theorem Coherent.clear_tells (coherent : session.Coherent) (live : session.state ≠ .idle)
    {accept : Bool} {turn : Turn Unit} (cleared : session.clear buffer accept = .ok turn) :
    session.Tells turn.session turn.buffer turn.events := by
  rcases coherent.clear_or_refuse cleared with ⟨after, rfl⟩ | ⟨_, error, rfl⟩
  · exact .close live session after
  · exact .quiet session buffer

theorem Coherent.edit_tells (coherent : session.Coherent) {line : Nat} {delta : Int}
    {turn : Turn Bool} (applied : session.applyEdit buffer line delta = .ok turn) :
    session.Tells turn.session turn.buffer turn.events := by
  cases coherent.hears applied with
  | ignored => exact .quiet session buffer
  | still => exact .quiet session buffer
  | followed state _ tracks follows fewer =>
      exact tracks.concluded_tells state follows fewer buffer

theorem Acts.tells (acts : session.Acts buffer next after events)
    (coherent : session.Coherent) : session.Tells next after events := by
  cases acts with
  | begin begun => exact beginRun_tells begun
  | line applied => exact coherent.line_tells applied
  | finish => exact ended_tells session buffer
  | resolve resolved => exact coherent.resolve_tells resolved
  | clear live cleared => exact coherent.clear_tells live cleared
  | edit applied => exact coherent.edit_tells applied
  | fire => exact ⟨[], rfl, .nothing rfl rfl⟩

theorem Speaks.spoken {said new : List Bulletin} (speaks : session.Speaks next after new)
    (spoken : Bulletin.Spoken session.state session.unresolved said) :
    Bulletin.Spoken next.state next.unresolved (said ++ new) := by
  cases speaks with
  | nothing state same =>
      rw [state, same, List.append_nil]
      exact spoken
  | line before still grows =>
      rw [before] at spoken
      rw [still]
      exact @Bulletin.Spoken.line _ _ (next.bulletin after .streaming) spoken rfl grows
  | review live state some fewer =>
      rw [state]
      exact @Bulletin.Spoken.review _ _ _ (next.bulletin after .done) spoken live rfl some fewer
  | finale live state empty =>
      have none : next.unresolved = 0 := congrArg (fun overlay => overlay.blocks.length) empty
      rw [state, none]
      exact .finale spoken live rfl none empty

theorem Speaks.length_le_one {said : List Bulletin} (speaks : session.Speaks next after said) :
    said.length ≤ 1 := by
  cases speaks <;> simp

theorem Speaks.bulletin {said : List Bulletin} (speaks : session.Speaks next after said)
    {bulletin : Bulletin} (member : bulletin ∈ said) :
    ∃ status, bulletin = next.bulletin after status := by
  cases speaks with
  | nothing _ _ => cases member
  | line _ _ _ | review _ _ _ _ | finale _ _ _ => exact ⟨_, List.mem_singleton.mp member⟩

theorem applyEdit_silent {line : Nat} {delta : Int} {turn : Turn Bool}
    (ignored : delta = 0 ∨ session.listening = false)
    (applied : session.applyEdit buffer line delta = .ok turn) : turn.events = [] := by
  by_cases listens : session.listening = true
  · rw [applyEdit_still listens (ignored.resolve_right (by simp [listens]))] at applied
    rw [← Except.ok.inj applied]
  · rw [applyEdit, if_neg listens] at applied
    rw [← Except.ok.inj applied]

end Session

end Redline
