import Mathlib.Logic.Function.Basic
import Redline.Manager.Request
import Redline.Manager.Run
import Redline.Proofs.Settling

/-! Streams under other numbers. The numbers that streams are given are only ever compared, so a
session does the same whatever they are, as long as different streams have different numbers. -/

namespace Redline

/-! ## Operations that agree -/

section Agreement

variable {α β γ δ : Type} {related : α → β → Prop} {others : γ → δ → Prop}

/-- Two operations succeed with related results, or both are abandoned with the same message. -/
inductive Alike (related : α → β → Prop) : Except Fault α → Except Fault β → Prop where
  | ok {first : α} {second : β} : related first second → Alike related (.ok first) (.ok second)
  | error {first second : Fault} : second.message = first.message →
      Alike related (.error first) (.error second)

abbrev Carried (image : α → β) : Except Fault α → Except Fault β → Prop :=
  Alike fun first second => second = image first

theorem Alike.bind {first : Except Fault α} {second : Except Fault β}
    {next : α → Except Fault γ} {follow : β → Except Fault δ} (alike : Alike related first second)
    (rest : ∀ one other, related one other → Alike others (next one) (follow other)) :
    Alike others (first >>= next) (second >>= follow) := by
  cases alike with
  | ok relates => exact rest _ _ relates
  | error same => exact .error same

theorem Alike.ite {condition : Prop} [Decidable condition] {first other : Except Fault α}
    {second another : Except Fault β} (yes : condition → Alike related first second)
    (no : ¬condition → Alike related other another) :
    Alike related (if condition then first else other) (if condition then second else another) := by
  by_cases holds : condition
  · rw [if_pos holds, if_pos holds]
    exact yes holds
  · rw [if_neg holds, if_neg holds]
    exact no holds

theorem Carried.bind {image : α → β} {first : Except Fault α} {second : Except Fault β}
    {next : α → Except Fault γ} {follow : β → Except Fault δ} (carried : Carried image first second)
    (rest : ∀ value, Alike others (next value) (follow (image value))) :
    Alike others (first >>= next) (second >>= follow) :=
  Alike.bind carried fun value _ same => same ▸ rest value

theorem Carried.same (result : Except Fault α) : Carried id result result := by
  cases result with
  | ok value => exact .ok rfl
  | error fault => exact .error rfl

theorem Carried.mapM {image : α → β} {carry : γ → δ} {first : α → Except Fault γ}
    {second : β → Except Fault δ} (each : ∀ element, Carried carry (first element)
      (second (image element))) (elements : List α) :
    Carried (List.map carry) (elements.mapM first) ((elements.map image).mapM second) := by
  induction elements with
  | nil => exact .ok rfl
  | cons element rest ih =>
      rw [List.map_cons, List.mapM_cons, List.mapM_cons]
      exact (each element).bind fun result => ih.bind fun results => .ok rfl

theorem Alike.known {first : Except Fault α} {second : Except Fault β}
    (alike : Alike related first second) :
    Alike (fun one other => first = .ok one ∧ related one other) first second := by
  cases alike with
  | ok relates => exact .ok ⟨rfl, relates⟩
  | error same => exact .error same

theorem Alike.imp {closer : α → β → Prop} {first : Except Fault α} {second : Except Fault β}
    (alike : Alike related first second) (implies : ∀ one other, related one other →
      closer one other) : Alike closer first second := by
  cases alike with
  | ok relates => exact .ok (implies _ _ relates)
  | error same => exact .error same

theorem Alike.of_ok {first : Except Fault α} {second : Except Fault β} {value : α}
    (alike : Alike related first second) (succeeds : first = .ok value) :
    ∃ other, second = .ok other ∧ related value other := by
  cases alike with
  | ok relates =>
      rw [← Except.ok.inj succeeds]
      exact ⟨_, rfl, relates⟩
  | error same => cases succeeds

end Agreement

/-! ## Names -/

/-- New numbers for streams, different ones for different streams. -/
structure Renaming where
  stream : StreamId → StreamId
  injective : Function.Injective stream

namespace Renaming

variable (names : Renaming)

def blockId (id : BlockId) : BlockId := ⟨names.stream id.stream, id.number⟩

def block (block : Block) : Block := { block with id := names.blockId block.id }

def registry (registry : Registry) : Registry :=
  ⟨names.stream registry.stream, registry.minted, registry.blocks.map names.block⟩

def session (session : Session) : Session :=
  { session with
    stream := names.stream session.stream
    registry := names.registry session.registry }

def overlay (overlay : Overlay) : Overlay :=
  { overlay with blocks := overlay.blocks.map names.block }

def update (update : StatusUpdate) : StatusUpdate :=
  { update with stream := names.stream update.stream }

def event : Event → Event
  | .status update => .status (names.update update)
  | .overlay buffer overlay => .overlay buffer (names.overlay overlay)

def error : SessionError → SessionError
  | .blockNotFound id => .blockNotFound (names.blockId id)
  | other => other

def outcome {α β : Type} (answer : α → β) : Except SessionError α → Except SessionError β
  | .ok result => .ok (answer result)
  | .error error => .error (names.error error)

def resolution (resolution : Resolution) : Resolution :=
  { resolution with block := names.block resolution.block }

def turn {α β : Type} (answer : α → β) (turn : Turn α) : Turn β :=
  ⟨names.session turn.session, turn.buffer, turn.events.map names.event,
    names.outcome answer turn.outcome⟩

def opened (opened : Opened) : Opened :=
  { opened with session := names.session opened.session }

def handle (handle : Handle) : Handle := { handle with stream := names.stream handle.stream }

def report (report : Report) : Report :=
  ⟨report.state, report.stream.map names.stream, report.blocks.map names.block,
    report.overlay.map names.overlay⟩

def answer : Answer → Answer
  | .started handle => .started (names.handle handle)
  | .resolved resolution => .resolved (names.resolution resolution)
  | .report report => .report (names.report report)
  | .refused error => .refused (names.error error)
  | other => other

def request : Request → Request
  | .resolve id block accept => .resolve id (names.blockId block) accept
  | .fire stream => .fire (names.stream stream)
  | other => other

def runOutcome : RunOutcome → RunOutcome
  | .failed error => .failed (names.error error)
  | other => other

def runEnd : RunEnd → RunEnd
  | .failed error => .failed (names.error error)
  | other => other

def stage : RunStage → RunStage
  | .ended outcome => .ended (names.runOutcome outcome)
  | other => other

def run (run : Run) : Run := ⟨names.handle run.handle, run.queued, names.stage run.stage⟩

theorem stream_inj {first second : StreamId} :
    names.stream first = names.stream second ↔ first = second :=
  names.injective.eq_iff

theorem blockId_inj {first second : BlockId} :
    names.blockId first = names.blockId second ↔ first = second := by
  rcases first with ⟨first, number⟩
  rcases second with ⟨second, other⟩
  simp only [blockId, BlockId.mk.injEq, names.stream_inj]

/-! ## Blocks -/

variable {registry : Registry}

theorem test_id (id : BlockId) : (fun block : Block => block.id == names.blockId id) ∘
    names.block = fun block => block.id == id := by
  funext block
  rw [Bool.eq_iff_iff]
  simp only [Function.comp_apply, beq_iff_eq]
  exact names.blockId_inj

theorem get?_registry (registry : Registry) (id : BlockId) :
    (names.registry registry).get? (names.blockId id) =
      (registry.get? id).map names.block := by
  rw [Registry.get?, Registry.get?, Renaming.registry, List.find?_map, names.test_id]

theorem remove_registry (registry : Registry) (id : BlockId) :
    ((names.registry registry).remove (names.blockId id)).2 =
      names.registry (registry.remove id).2 := by
  rw [Registry.remove, Registry.remove, Renaming.registry, Renaming.registry]
  simp only [List.eraseP_map, names.test_id]

theorem starts_registry (registry : Registry) :
    (names.registry registry).blocks.map Block.start = registry.blocks.map Block.start := by
  rw [Renaming.registry, List.map_map]
  rfl

theorem split_registry (registry : Registry) (span : Span) :
    (names.registry registry).split span = registry.split span := by
  simp only [Registry.split, Registry.cutsOf, starts_registry]

theorem idAt?_registry (registry : Registry) (start : Nat) :
    (names.registry registry).idAt? start = (registry.idAt? start).map names.blockId := by
  rw [Registry.idAt?, Registry.idAt?, Renaming.registry, bisect_map]
  have starts : (fun block : Block => decide (block.start ≤ start)) ∘ names.block =
      fun block => decide (block.start ≤ start) := rfl
  rw [starts]
  cases bisect (fun block : Block => decide (block.start ≤ start)) registry.blocks with
  | zero => rfl
  | succ found =>
      simp only [List.getElem?_map]
      cases registry.blocks[found]? with
      | none => rfl
      | some block =>
          show (if block.start = start then some (names.blockId block.id) else none) =
            (if block.start = start then some block.id else none).map names.blockId
          split <;> rfl

theorem adopt_registry (registry : Registry) (spans : List Span) (minted : Nat) :
    (names.registry registry).adopt minted spans =
      ((registry.adopt minted spans).1, (registry.adopt minted spans).2.map names.block) := by
  induction spans generalizing minted with
  | nil => rfl
  | cons span rest ih =>
      rw [Registry.adopt, Registry.adopt, names.idAt?_registry]
      cases registry.idAt? span.start with
      | none =>
          simp only [Option.map_none, ih]
          rfl
      | some id =>
          simp only [Option.map_some, ih]
          rfl

theorem checkOrder_blocks (blocks : List Block) :
    Registry.checkOrder (blocks.map names.block) = Registry.checkOrder blocks := by
  induction blocks with
  | nil => rfl
  | cons first rest ih =>
      cases rest with
      | nil => rfl
      | cons second rest =>
          rw [List.map_cons, List.map_cons, Registry.checkOrder, Registry.checkOrder,
            ← List.map_cons, ih]
          rfl

theorem check_registry (registry : Registry) :
    Carried id registry.check (names.registry registry).check := by
  rw [Registry.check, Registry.check, Renaming.registry, List.find?_map]
  have rows : (fun block : Block => block.red + block.green == 0) ∘ names.block =
      fun block => block.red + block.green == 0 := rfl
  rw [rows]
  cases registry.blocks.find? fun block => block.red + block.green == 0 with
  | some block => exact .error rfl
  | none =>
      simp only [Option.map_none, checkOrder_blocks]
      exact .same _

theorem sync_registry (registry : Registry) (spans : List Span) :
    Carried (fun synced => (synced.1, names.registry synced.2)) (registry.sync spans)
      ((names.registry registry).sync spans) := by
  have parts : (names.registry registry).split = registry.split :=
    funext (names.split_registry registry)
  rw [Registry.sync, Registry.sync, parts]
  refine Carried.bind (.same _) fun parts => ?_
  simp only [id_eq, names.adopt_registry registry, show
    (names.registry registry).minted = registry.minted from rfl]
  exact (names.check_registry { registry with
    minted := (registry.adopt registry.minted parts.flatten).1
    blocks := (registry.adopt registry.minted parts.flatten).2 }).bind fun _ => .ok rfl

theorem mapM_starts (move : Nat → Except Fault Nat) (registry : Registry) (blocks : List Block) :
    Carried names.registry
      (do
        let moved ← blocks.mapM fun block => do return { block with start := ← move block.start }
        return { registry with blocks := moved })
      (do
        let moved ← (blocks.map names.block).mapM fun block => do
          return { block with start := ← move block.start }
        return { names.registry registry with blocks := moved }) := by
  refine Carried.bind (@Carried.mapM _ _ _ _ _ names.block _ _ (fun block => ?_) blocks)
    fun moved => .ok rfl
  exact Carried.bind (.same (move block.start)) fun start => .ok rfl

theorem shiftFrom_registry (registry : Registry) (line : Nat) (offset : Int) :
    Carried names.registry (registry.shiftFrom line offset)
      ((names.registry registry).shiftFrom line offset) :=
  names.mapM_starts (Row.moveFrom line offset) registry registry.blocks

theorem survivors_blocks (shift : RowShift) (blocks : List Block) :
    Carried (List.map names.block) (Registry.survivors shift blocks)
      (Registry.survivors shift (blocks.map names.block)) := by
  induction blocks with
  | nil => exact .ok rfl
  | cons block rest ih =>
      rw [List.map_cons, Registry.survivors, Registry.survivors]
      have survives : Carried id (Registry.survives shift block)
        (Registry.survives shift (names.block block)) := .same _
      refine survives.bind fun kept => ih.bind fun others => .ok ?_
      simp only [id_eq]
      split <;> rfl

theorem remap_registry (registry : Registry) (shift : RowShift) :
    Carried names.registry (registry.remap shift) ((names.registry registry).remap shift) := by
  rw [Registry.remap, Registry.remap]
  exact (names.survivors_blocks shift registry.blocks).bind fun kept =>
    names.mapM_starts shift.apply registry kept

/-! ## Sessions -/

variable {session : Session} {buffer : Buffer}

theorem announce_session (session : Session) (buffer : Buffer) (status : Status) :
    (names.session session).announce buffer status =
      (session.announce buffer status).map names.event := by
  simp [Session.announce, Session.statusUpdate, Renaming.session, Renaming.registry, event, update,
    overlay, Session.overlay]

theorem count_session (session : Session) :
    (names.session session).registry.blocks.length = session.registry.blocks.length :=
  List.length_map _

theorem close_session (session : Session) (buffer : Buffer) :
    (names.session session).close buffer =
      (names.session (session.close buffer).1, (session.close buffer).2.map names.event) :=
  Prod.ext rfl (names.announce_session (session.close buffer).1 buffer .closed)

theorem concluded_session (session : Session) (buffer : Buffer) :
    (names.session session).concluded buffer =
      (names.session (session.concluded buffer).1,
        (session.concluded buffer).2.map names.event) := by
  rw [Session.concluded, Session.concluded, count_session, close_session, announce_session]
  split <;> rfl

theorem start_session (bufferId : BufferId) (stream : StreamId) (buffer : Buffer)
    (range : LineRange) : Session.start bufferId (names.stream stream) buffer range =
      names.outcome names.session (Session.start bufferId stream buffer range) := by
  rw [Session.start, Session.start]
  split <;> rfl

theorem beginRun_session (session : Session) : (names.session session).beginRun =
    names.outcome names.session session.beginRun := by
  rw [Session.beginRun, Session.beginRun]
  by_cases late : session.running = true ∨ 0 < session.applied ∨ session.state ≠ .streaming
  · rw [if_pos late]
    exact if_pos late
  · rw [if_neg late]
    exact if_neg late

theorem sync_session (session : Session) :
    Carried names.session session.sync (names.session session).sync := by
  rw [Session.sync, Session.sync]
  exact (names.sync_registry session.registry session.tracker.spans).bind fun _ => .ok rfl

/-! ### Streaming -/

theorem advance_session (session : Session) (buffer : Buffer) :
    Carried (names.turn id) (session.advance buffer) ((names.session session).advance buffer) := by
  rw [Session.advance, Session.advance]
  refine (names.sync_session { session with
    cursor := session.cursor + 1, applied := session.applied + 1 }).bind fun synced => .ok ?_
  rw [announce_session]
  rfl

theorem refuse_session {α β : Type} {answer : α → β} (session : Session) (buffer : Buffer)
    {error : SessionError} (unnamed : names.error error = error) :
    Carried (names.turn answer) (.ok (session.refuse buffer error))
      (.ok ((names.session session).refuse buffer error)) := by
  refine .ok ?_
  rw [turn, Session.refuse, Session.refuse, outcome, unnamed, List.map_nil]

theorem applySame_session (session : Session) (buffer : Buffer) (line : Nat) (text : String) :
    Carried (names.turn id) (session.applySame buffer line text)
      ((names.session session).applySame buffer line text) :=
  Alike.ite (fun _ => names.advance_session _ buffer)
    fun _ => names.refuse_session session buffer rfl

theorem applyRemoved_session (session : Session) (buffer : Buffer) (line : Nat) :
    Carried (names.turn id) (session.applyRemoved buffer line)
      ((names.session session).applyRemoved buffer line) := by
  refine Alike.ite (fun _ => ?_) fun _ => names.refuse_session session buffer rfl
  cases buffer.delete line 1 with
  | error error => exact names.refuse_session _ buffer rfl
  | ok deleted =>
      refine Carried.bind (.same _) fun shifted => Carried.bind (.same _) fun opened =>
        Carried.bind (.same _) fun tracker => ?_
      exact names.advance_session _ deleted.2

theorem applyAdded_session (session : Session) (buffer : Buffer) (line : Nat) (text : String) :
    Carried (names.turn id) (session.applyAdded buffer line text)
      ((names.session session).applyAdded buffer line text) := by
  rw [Session.applyAdded, Session.applyAdded]
  cases buffer.insert line [text] with
  | error error => exact names.refuse_session session buffer rfl
  | ok inserted =>
      refine Carried.bind (.same _) fun shifted => Carried.bind (.same _) fun tracker => ?_
      exact names.advance_session _ inserted

theorem applyLine_session (session : Session) (buffer : Buffer) (line : DiffLine) :
    Carried (names.turn id) (session.applyLine buffer line)
      ((names.session session).applyLine buffer line) := by
  refine Alike.ite (fun _ => ?_) fun _ => names.refuse_session session buffer rfl
  rcases line with ⟨kind, text⟩
  cases kind with
  | same => exact names.applySame_session session buffer _ text
  | removed => exact names.applyRemoved_session session buffer _
  | added => exact names.applyAdded_session session buffer _ text

theorem finish_session (session : Session) (buffer : Buffer) :
    (names.session session).finish buffer =
      (names.session (session.finish buffer).1, (session.finish buffer).2.map names.event) := by
  by_cases state : session.state = .streaming
  · let heard : Session := { session with running := false, openRun := none, listening := true }
    let review : Session := { heard with state := .reviewing }
    have first : session.finish buffer =
        if heard.registry.blocks.isEmpty then heard.close buffer
        else (review, review.announce buffer .done) := if_pos state
    have second : (names.session session).finish buffer =
        if (names.session heard).registry.blocks.isEmpty then (names.session heard).close buffer
        else (names.session review, (names.session review).announce buffer .done) := if_pos state
    have plain : (names.session heard).registry.blocks.isEmpty = heard.registry.blocks.isEmpty :=
      List.isEmpty_map
    rw [first, second, plain]
    split
    · exact names.close_session heard buffer
    · exact Prod.ext rfl (names.announce_session review buffer .done)
  · have first : session.finish buffer =
        ({ session with running := false, openRun := none }, []) := if_neg state
    rw [first]
    exact if_neg state

/-! ### Reviewing -/

theorem forget_session (session : Session) (block : Block) (offset : Int) :
    Carried names.session (session.forget block offset)
      ((names.session session).forget (names.block block) offset) := by
  refine Carried.bind (.same _) fun tracker => ?_
  have removed : ((names.session session).registry.remove (names.block block).id).2 =
      names.registry (session.registry.remove block.id).2 :=
    names.remove_registry session.registry block.id
  rw [removed]
  exact (names.shiftFrom_registry _ block.start offset).bind fun registry => .ok rfl

theorem restore_session (session : Session) (buffer : Buffer) (block : Block) :
    Carried (names.turn id) (session.restore buffer block)
      ((names.session session).restore buffer (names.block block)) := by
  have line : (names.session session).tracker.bufferLine (names.block block).start =
      session.tracker.bufferLine block.start := rfl
  have texts : (names.session session).ghostTexts (names.block block) =
      session.ghostTexts block := rfl
  have green : (names.block block).green = block.green := rfl
  refine Alike.ite (fun _ => ?_) fun _ => names.refuse_session session buffer rfl
  simp only [line, texts, green]
  cases buffer.delete (session.tracker.bufferLine block.start) block.green with
  | error error => exact names.refuse_session session buffer rfl
  | ok deleted =>
      rcases deleted with ⟨_, emptied⟩
      simp only
      cases emptied.insert (session.tracker.bufferLine block.start)
          (session.ghostTexts block) with
      | error error => exact names.refuse_session session emptied rfl
      | ok restored => exact (names.forget_session session block _).bind fun _ => .ok rfl

theorem settle_session (session : Session) (buffer : Buffer) (block : Block) (accept : Bool) :
    Carried (names.turn id) (session.settle buffer block accept)
      ((names.session session).settle buffer (names.block block) accept) :=
  Alike.ite (fun _ => (names.forget_session session block _).bind fun _ => .ok rfl)
    fun _ => names.restore_session session buffer block

theorem resolve_session (session : Session) (buffer : Buffer) (block : BlockId) (accept : Bool) :
    Carried (names.turn names.resolution) (session.resolve buffer block accept)
      ((names.session session).resolve buffer (names.blockId block) accept) := by
  refine Alike.ite (fun _ => ?_) fun _ => names.refuse_session session buffer rfl
  rw [show (names.session session).registry = names.registry session.registry from rfl,
    names.get?_registry]
  cases session.registry.get? block with
  | none => exact .ok rfl
  | some found =>
      refine (names.settle_session session buffer found accept).bind fun settled => ?_
      rcases settled with ⟨next, after, events, result⟩
      cases result with
      | error error => exact .ok rfl
      | ok settled =>
          refine (names.sync_session next).bind fun synced => ?_
          show Carried (names.turn names.resolution)
            (.ok ⟨(synced.concluded after).1, after, (synced.concluded after).2,
              .ok ⟨found, synced.registry.blocks.length, synced.registry.blocks.length == 0⟩⟩)
            (.ok ⟨((names.session synced).concluded after).1, after,
              ((names.session synced).concluded after).2, .ok ⟨names.block found,
                (names.session synced).registry.blocks.length,
                (names.session synced).registry.blocks.length == 0⟩⟩)
          rw [concluded_session, count_session]
          exact .ok rfl

theorem rejectAll_session (session : Session) (buffer : Buffer) (blocks : List Block) :
    Carried (names.turn id) (session.rejectAll buffer blocks)
      ((names.session session).rejectAll buffer (blocks.map names.block)) := by
  induction blocks generalizing session buffer with
  | nil => exact .ok rfl
  | cons block rest ih =>
      rw [List.map_cons, Session.rejectAll, Session.rejectAll]
      refine (names.restore_session session buffer block).bind fun restored => ?_
      rcases restored with ⟨next, after, events, result⟩
      cases result with
      | error error => exact .ok rfl
      | ok restored => exact ih next after

theorem clear_session (session : Session) (buffer : Buffer) (accept : Bool) :
    Carried (names.turn id) (session.clear buffer accept)
      ((names.session session).clear buffer accept) := by
  have blocks : (if accept then [] else (names.session session).registry.blocks.reverse) =
      (if accept then [] else session.registry.blocks.reverse).map names.block := by
    split
    · rfl
    · exact List.map_reverse.symm
  rw [Session.clear, Session.clear]
  simp only [blocks]
  refine (names.rejectAll_session session buffer _).bind fun rejected => ?_
  rcases rejected with ⟨next, after, events, result⟩
  cases result with
  | error error => exact .ok rfl
  | ok rejected =>
      refine .ok ?_
      simp only [turn, close_session]
      rfl

theorem applyEdit_session (session : Session) (buffer : Buffer) (line : Nat) (delta : Int) :
    Carried (names.turn id) (session.applyEdit buffer line delta)
      ((names.session session).applyEdit buffer line delta) := by
  refine Alike.ite (fun _ => ?_) fun _ => .ok rfl
  refine Carried.bind (.same (session.tracker.applyEdit line delta)) fun edited => ?_
  rcases edited with ⟨shift, tracker⟩
  refine Alike.ite (fun _ => .ok rfl) fun _ => ?_
  refine (names.remap_registry session.registry shift).bind fun registry => ?_
  refine (names.sync_session { session with tracker, registry }).bind fun synced => ?_
  have plain : (names.session synced).registry.blocks.isEmpty =
      synced.registry.blocks.isEmpty := List.isEmpty_map
  simp only [plain, close_session, announce_session]
  cases synced.registry.blocks.isEmpty with
  | true => exact .ok rfl
  | false => exact .ok rfl

end Renaming

end Redline
