import Mathlib
import Redline.Proofs.Driving
import Redline.Proofs.Reporting

namespace Redline

structure Applied where
  line : DiffLine
  deleted : List String
  deriving DecidableEq, Repr

/-- Successive lines of a stream, each with its place in the stream. -/
abbrev ChangeRun := List (Applied × Nat)

namespace ChangeRun

def place (run : ChangeRun) : Nat := (run.head?.map Prod.snd).getD 0

def count (kind : DiffKind) (run : ChangeRun) : Nat := run.countP fun op => op.1.line.kind == kind

def texts (run : ChangeRun) : List String := run.flatMap fun op => op.1.deleted

def block (stream : StreamId) (row number : Nat) (run : ChangeRun) : Block :=
  ⟨⟨stream, number⟩, row + run.place, run.count .removed, run.count .added⟩

def blocks (stream : StreamId) (row : Nat) (runs : List ChangeRun) : List Block :=
  runs.zipIdx.map fun (run, number) => block stream row number run

def ghosts (row : Nat) (runs : List ChangeRun) : List Ghost :=
  runs.flatMap fun run => Tracker.ghostRows (row + run.place) run.texts

variable {stream : StreamId} {row : Nat} {front runs : List ChangeRun} {run : ChangeRun}
  {kind : DiffKind}

theorem place_append (some : run ≠ []) (extra : ChangeRun) : place (run ++ extra) = place run := by
  cases run with
  | nil => exact absurd rfl some
  | cons op rest => rfl

@[simp] theorem count_append (run extra : ChangeRun) :
    count kind (run ++ extra) = count kind run + count kind extra := List.countP_append

@[simp] theorem texts_append (run extra : ChangeRun) :
    texts (run ++ extra) = texts run ++ texts extra := List.flatMap_append

theorem blocks_snoc (front : List ChangeRun) (run : ChangeRun) :
    blocks stream row (front ++ [run]) =
      blocks stream row front ++ [block stream row front.length run] := by
  simp [blocks, List.zipIdx_append]

theorem ghosts_snoc (front : List ChangeRun) (run : ChangeRun) :
    ghosts row (front ++ [run]) =
      ghosts row front ++ Tracker.ghostRows (row + run.place) run.texts := by
  simp [ghosts]

@[simp] theorem length_blocks (runs : List ChangeRun) :
    (blocks stream row runs).length = runs.length := by
  simp [blocks]

theorem blocks_prefix (more : front <+: runs) :
    blocks stream row front <+: blocks stream row runs := by
  rcases more with ⟨rest, rfl⟩
  rw [blocks, blocks, List.zipIdx_append, List.map_append]
  exact List.prefix_append _ _

theorem ghosts_prefix (more : front <+: runs) : ghosts row front <+: ghosts row runs := by
  rcases more with ⟨rest, rfl⟩
  rw [ghosts, ghosts, List.flatMap_append]
  exact List.prefix_append _ _

end ChangeRun

namespace Applied

def runs (done : List Applied) : List ChangeRun :=
  (done.zipIdx.splitBy fun first second => first.1.line.isChange && second.1.line.isChange).filter
    fun group => group.any fun op => op.1.line.isChange

variable {done more : List Applied} {last op : Applied} {front : List ChangeRun} {run : ChangeRun}

theorem runs_append_apart (apart : ∀ last ∈ done.getLast?, ∀ next ∈ more.head?,
    (last.line.isChange && next.line.isChange) = false) :
    runs done <+: runs (done ++ more) := by
  rw [runs, runs, List.zipIdx_append, List.splitBy_append, List.filter_append]
  · exact List.prefix_append _ _
  · intro first atEnd second atStart
    rw [List.getLast?_zipIdx] at atEnd
    rw [List.head?_zipIdx] at atStart
    rcases Option.map_eq_some_iff.mp atEnd with ⟨last, ends, rfl⟩
    rcases Option.map_eq_some_iff.mp atStart with ⟨next, starts, rfl⟩
    exact apart last ends next starts

theorem runs_snoc_apart (apart : ∀ last ∈ done.getLast?, (last.line.isChange && op.line.isChange) =
    false) : runs (done ++ [op]) =
      runs done ++ if op.line.isChange then [[(op, done.length)]] else [] := by
  rw [runs, List.zipIdx_append, List.splitBy_append, List.filter_append, Nat.zero_add]
  · congr 1
    cases change : op.line.isChange <;>
      simp [List.zipIdx_cons, List.splitBy, List.splitBy.loop, change]
  · intro first atEnd second atStart
    rw [List.getLast?_zipIdx] at atEnd
    rcases Option.map_eq_some_iff.mp atEnd with ⟨last, ends, rfl⟩
    rw [List.zipIdx_singleton, List.head?_cons, Option.mem_some_iff] at atStart
    subst atStart
    exact apart last ends

theorem runs_snoc_join (ends : last ∈ done.getLast?)
    (both : (last.line.isChange && op.line.isChange) = true) : ∃ front run,
      runs done = front ++ [run] ∧ run ≠ [] ∧
        runs (done ++ [op]) = front ++ [run ++ [(op, done.length)]] := by
  have atEnd : (last, 0 + done.length - 1) ∈ done.zipIdx.getLast? := by
    rw [List.getLast?_zipIdx, ends]
    rfl
  obtain ⟨front, run, divided, member, joined⟩ := @DiffLine.splitBy_snoc_join _
    (fun first second : Applied × Nat => first.1.line.isChange && second.1.line.isChange) _ _
    (op, done.length) atEnd both
  have change : last.line.isChange = true := (Bool.and_eq_true_iff.mp both).1
  have changes : run.any (fun op => op.1.line.isChange) = true :=
    List.any_eq_true.mpr ⟨_, member, change⟩
  have together : runs (done ++ [op]) =
      front.filter (fun group => group.any fun op => op.1.line.isChange) ++
        [run ++ [(op, done.length)]] := by
    rw [runs, List.zipIdx_append, Nat.zero_add, List.zipIdx_singleton, joined, List.filter_append,
      List.filter_singleton, List.any_append, changes]
    rfl
  refine ⟨_, run, ?_, List.ne_nil_of_mem member, together⟩
  rw [runs, divided, List.filter_append, List.filter_singleton, changes]
  rfl

theorem mem_of_mem_runs {entry : Applied × Nat} (known : run ∈ runs done) (member : entry ∈ run) :
    entry.1 ∈ done := by
  have listed : entry ∈ done.zipIdx := by
    rw [← List.flatten_splitBy
      (fun first second : Applied × Nat => first.1.line.isChange && second.1.line.isChange)
      done.zipIdx]
    exact List.mem_flatten.mpr ⟨run, List.mem_of_mem_filter known, member⟩
  exact List.fst_mem_of_mem_zipIdx listed

theorem ne_nil_of_mem_runs (known : run ∈ runs done) : run ≠ [] :=
  List.ne_nil_of_mem_splitBy (List.mem_of_mem_filter known)

theorem runs_append (more : List Applied) (divided : runs done = front ++ [run]) :
    ∃ extra, front ++ [run ++ extra] <+: runs (done ++ more) := by
  induction more generalizing done run with
  | nil =>
      have whole : front ++ [run ++ []] = runs (done ++ []) := by
        rw [List.append_nil, List.append_nil, divided]
      exact ⟨[], whole ▸ List.prefix_rfl⟩
  | cons op more ih =>
      by_cases joins : ∃ last ∈ done.getLast?, (last.line.isChange && op.line.isChange) = true
      · rcases joins with ⟨last, ends, both⟩
        rcases runs_snoc_join ends both with ⟨above, final, same, _, joined⟩
        rcases List.append_inj' (same.symm.trans divided) rfl with ⟨rfl, equal⟩
        cases equal
        rcases ih joined with ⟨extra, later⟩
        rw [List.append_assoc, List.append_assoc] at later
        exact ⟨_, later⟩
      · have apart : ∀ last ∈ done.getLast?, ∀ next ∈ (op :: more).head?,
            (last.line.isChange && next.line.isChange) = false := by
          intro last ends next starts
          rw [List.head?_cons, Option.mem_some_iff] at starts
          rw [← starts]
          exact Bool.eq_false_iff.mpr fun both => joins ⟨last, ends, both⟩
        refine ⟨[], ?_⟩
        rw [List.append_nil, ← divided]
        exact runs_append_apart apart

theorem runs_grow (done more : List Applied) : runs done = [] ∨ ∃ front run extra,
    runs done = front ++ [run] ∧ run ≠ [] ∧
      front ++ [run ++ extra] <+: runs (done ++ more) := by
  rcases List.eq_nil_or_concat (runs done) with none | ⟨front, run, divided⟩
  · exact .inl none
  · rw [List.concat_eq_append] at divided
    have known : run ∈ runs done := by
      rw [divided]
      exact List.mem_append_right _ List.mem_cons_self
    rcases runs_append more divided with ⟨extra, later⟩
    exact .inr ⟨front, run, extra, divided, ne_nil_of_mem_runs known, later⟩

theorem ghosts_prefix (row : Nat) (done more : List Applied) :
    ChangeRun.ghosts row (runs done) <+: ChangeRun.ghosts row (runs (done ++ more)) := by
  rcases runs_grow done more with none | ⟨front, run, extra, divided, some, later⟩
  · rw [none]
    exact List.nil_prefix
  · have higher := @ChangeRun.ghosts_prefix row _ _ later
    rw [ChangeRun.ghosts_snoc, ChangeRun.place_append some, ChangeRun.texts_append,
      Draft.ghostRows_append, ← List.append_assoc] at higher
    rw [divided, ChangeRun.ghosts_snoc]
    exact (List.prefix_append _ _).trans higher

/-- A block keeps its id and its start, and the blocks before the last one are left alone. -/
theorem blocks_prefix (stream : StreamId) (row : Nat) (done more : List Applied) :
    let before := ChangeRun.blocks stream row (runs done)
    let after := ChangeRun.blocks stream row (runs (done ++ more))
    before.map (fun block => (block.id, block.start)) <+:
        after.map (fun block => (block.id, block.start)) ∧
      before.dropLast <+: after := by
  intro before after
  rcases runs_grow done more with none | ⟨front, run, extra, divided, some, later⟩
  · have nothing : before = [] := congrArg (ChangeRun.blocks stream row) none
    rw [nothing]
    exact ⟨List.nil_prefix, List.nil_prefix⟩
  · have higher := @ChangeRun.blocks_prefix stream row _ _ later
    have same : before = ChangeRun.blocks stream row front ++
        [ChangeRun.block stream row front.length run] :=
      (congrArg (ChangeRun.blocks stream row) divided).trans (ChangeRun.blocks_snoc front run)
    rw [ChangeRun.blocks_snoc] at higher
    rw [same]
    constructor
    · have starts := higher.map fun block => (block.id, block.start)
      simpa [ChangeRun.block, ChangeRun.place_append some] using starts
    · rw [List.dropLast_concat]
      exact (List.prefix_append _ _).trans higher

end Applied

namespace Buffer

theorem diff_front (top rest : List String) : (top ++ rest).diff top = rest := by
  induction top with
  | nil => rfl
  | cons text top ih => rw [List.cons_append, List.diff_cons, List.erase_cons_head, ih]

/-- What is missing is the line that was cut out, whichever of several equal lines. -/
theorem diff_cut {lines : List String} {index : Nat} {text : String}
    (found : lines[index]? = some text) :
    lines.diff (lines.take index ++ lines.drop (index + 1)) = [text] := by
  rcases List.getElem?_eq_some_iff.mp found with ⟨inside, rfl⟩
  generalize bottom : lines.drop (index + 1) = rest
  have whole : lines = lines.take index ++ lines[index] :: rest := by
    rw [← bottom, ← List.drop_eq_getElem_cons inside, List.take_append_drop]
  generalize lines[index] = text at whole
  generalize lines.take index = top at whole
  have turned := (List.perm_append_singleton text rest).symm.diff_right rest
  rw [diff_front] at turned
  rw [whole, List.diff_append, diff_front]
  exact List.perm_singleton.mp turned

theorem diff_insert (lines : List String) (index : Nat) (text : String) :
    lines.diff (lines.take index ++ [text] ++ lines.drop index) = [] := by
  have whole := List.take_append_drop index lines
  generalize lines.take index = top at whole
  generalize lines.drop index = rest at whole
  have nothing := diff_front rest []
  have fewer : (rest.diff (text :: rest)).Sublist (rest.diff rest) := by
    rw [List.diff_cons]
    exact (List.erase_sublist).diff_right
  rw [List.append_nil] at nothing
  rw [nothing] at fewer
  rw [← whole, List.append_assoc, List.diff_append, diff_front]
  exact List.sublist_nil.mp fewer

end Buffer

namespace Session

variable {session next : Session} {buffer after : Buffer} {draft : List Passage}
  {stream : StreamId} {row : Nat} {done more : List Applied} {op : Applied}

/-- The session after some lines were applied, one by one. In between the host changes the buffer at
will, and asks for anything else as long as the session goes on streaming. -/
inductive Streamed (session : Session) : List Applied → Session → Prop where
  | here : Streamed session [] session
  | line {done : List Applied} {middle : Session} {before : Buffer} {line : DiffLine}
      {turn : Turn Unit} : Streamed session done middle →
      middle.applyLine before line = .ok turn → turn.outcome = .ok () →
      Streamed session (done ++ [⟨line, before.lines.diff turn.buffer.lines⟩]) turn.session
  | other {done : List Applied} {middle next : Session} {before after : Buffer}
      {operation : Operation} : Streamed session done middle →
      (∀ line, operation ≠ .line line) → middle.perform before operation = .ok (next, after) →
      next.state = .streaming → Streamed session done next
  | fire {done : List Applied} {middle : Session} :
      Streamed session done middle → Streamed session done { middle with cancelled := true }

/-- There is one block for every run, and its ghosts are the lines that the run deleted. -/
structure Shaped (session : Session) (stream : StreamId) (row : Nat) (done : List Applied) :
    Prop where
  blocks : session.registry.blocks = ChangeRun.blocks stream row (Applied.runs done)
  ghosts : session.tracker.ghosts = ChangeRun.ghosts row (Applied.runs done)
  added : session.tracker.added = session.registry.blocks.flatMap Block.addedRanges

structure Traces (session : Session) (stream : StreamId) (row : Nat) (done : List Applied)
    (draft : List Passage) : Prop where
  streams : session.Streams draft
  state : session.state = .streaming
  owner : session.registry.stream = stream
  minted : session.registry.minted = (Draft.ids draft).length
  width : session.cursor = row + done.length
  single : ∀ op ∈ done, op.deleted.length = if op.line.kind = .removed then 1 else 0
  blocks : Draft.blocks 0 draft = ChangeRun.blocks stream row (Applied.runs done)
  ghosts : Draft.ghosts 0 draft = ChangeRun.ghosts row (Applied.runs done)
  opened : session.openRun.isSome = done.getLast?.any fun last => last.line.isChange

theorem Traces.length_runs (traces : session.Traces stream row done draft) :
    (Applied.runs done).length = (Draft.ids draft).length := by
  rw [← Draft.map_id_blocks 0, traces.blocks, List.length_map, ChangeRun.length_blocks]

theorem Traces.begins (traces : session.Traces stream row done draft)
    (closed : session.openRun = none) (change : op.line.isChange = true) :
    Applied.runs (done ++ [op]) = Applied.runs done ++ [[(op, done.length)]] := by
  have opened := traces.opened
  rw [closed, Option.isSome_none] at opened
  rw [Applied.runs_snoc_apart, if_pos change]
  intro last ends
  rw [ends, Option.any_some] at opened
  rw [← opened, Bool.false_and]

theorem Traces.joins (traces : session.Traces stream row done draft) {run : OpenRun}
    (opened : session.openRun = some run) (change : op.line.isChange = true) : ∃ front run,
      Applied.runs done = front ++ [run] ∧ run ≠ [] ∧
        Applied.runs (done ++ [op]) = front ++ [run ++ [(op, done.length)]] := by
  have ends := traces.opened
  rw [opened, Option.isSome_some] at ends
  rcases (Option.any_eq_true _ _).mp ends.symm with ⟨last, final, changes⟩
  exact Applied.runs_snoc_join final (by rw [changes, change]; rfl)

theorem Traces.length_texts (traces : session.Traces stream row done draft) {run : ChangeRun}
    (known : ∀ entry ∈ run, entry.1 ∈ done) : run.texts.length = run.count .removed := by
  induction run with
  | nil => rfl
  | cons entry rest ih =>
      have single := traces.single entry.1 (known entry List.mem_cons_self)
      have later := ih fun other member => known other (List.mem_cons_of_mem entry member)
      rw [← List.singleton_append, ChangeRun.texts_append, ChangeRun.count_append,
        List.length_append, later]
      simp [ChangeRun.texts, ChangeRun.count, single]

theorem Traces.last_run {front : List Passage} {id : BlockId} {taken put : List String}
    {above : List ChangeRun} {run : ChangeRun}
    (traces : session.Traces stream row done (front ++ [.change id taken put]))
    (divided : Applied.runs done = above ++ [run]) :
    Draft.blocks 0 front = ChangeRun.blocks stream row above ∧
      ⟨id, Draft.size front, taken.length, put.length⟩ =
        ChangeRun.block stream row above.length run ∧
      Draft.ghosts 0 front = ChangeRun.ghosts row above ∧ taken = run.texts := by
  have blocks := traces.blocks
  have ghosts := traces.ghosts
  rw [divided, ChangeRun.blocks_snoc, Draft.blocks_append] at blocks
  rw [divided, ChangeRun.ghosts_snoc, Draft.ghosts_append] at ghosts
  rcases List.append_inj' blocks rfl with ⟨before, last⟩
  have same : ⟨id, Draft.size front, taken.length, put.length⟩ =
      ChangeRun.block stream row above.length run := by
    simpa [Draft.blocks] using last
  have known : ∀ entry ∈ run, entry.1 ∈ done := by
    intro entry member
    apply Applied.mem_of_mem_runs _ member
    rw [divided]
    exact List.mem_append_right _ List.mem_cons_self
  have start : Draft.size front = row + run.place := congrArg Block.start same
  have count : taken.length = run.texts.length :=
    (congrArg Block.red same).trans (traces.length_texts known).symm
  rw [Nat.zero_add, start] at ghosts
  simp only [Draft.ghosts, List.append_nil] at ghosts
  rcases List.append_inj' ghosts (by simp [count]) with ⟨higher, own⟩
  have texts := congrArg (List.map Ghost.text) own
  rw [Draft.map_text_ghostRows, Draft.map_text_ghostRows] at texts
  exact ⟨before, same, higher, texts⟩

theorem Traces.blocks_extend (traces : session.Traces stream row done draft)
    (change : op.line.isChange = true) {removed added : List String}
    (reds : removed.length = ChangeRun.count .removed [(op, done.length)])
    (greens : added.length = ChangeRun.count .added [(op, done.length)]) :
    Draft.blocks 0 (Draft.extend session.fresh removed added draft) =
      ChangeRun.blocks stream row (Applied.runs (done ++ [op])) := by
  have streams := traces.streams
  rcases Draft.closed_or_open draft with ⟨closed, none⟩ | ⟨front, id, taken, put, rfl, some⟩
  · have fresh : session.fresh = ⟨stream, (Applied.runs done).length⟩ := by
      rw [Session.fresh, traces.owner, traces.minted, traces.length_runs]
    rw [traces.begins (streams.opened.trans none) change, ChangeRun.blocks_snoc, ← traces.blocks,
      Draft.extend_closed _ closed, Draft.blocks_append, fresh]
    simp [Draft.blocks, ChangeRun.block, ChangeRun.place, streams.width, traces.width, reds, greens]
  · rcases traces.joins (streams.opened.trans some) change with ⟨above, run, same, filled, joined⟩
    rcases traces.last_run same with ⟨before, last, _⟩
    simp only [ChangeRun.block, Block.mk.injEq] at last
    rw [joined, ChangeRun.blocks_snoc, ← before, Draft.extend_open, Draft.blocks_append]
    simp [Draft.blocks, ChangeRun.block, ChangeRun.place_append filled, last, reds, greens]

theorem Traces.ghosts_extend (traces : session.Traces stream row done draft)
    (change : op.line.isChange = true) (added : List String) :
    Draft.ghosts 0 (Draft.extend session.fresh op.deleted added draft) =
      ChangeRun.ghosts row (Applied.runs (done ++ [op])) := by
  have streams := traces.streams
  rcases Draft.closed_or_open draft with ⟨closed, none⟩ | ⟨front, id, taken, put, rfl, some⟩
  · rw [traces.begins (streams.opened.trans none) change, ChangeRun.ghosts_snoc, ← traces.ghosts,
      Draft.extend_closed _ closed, Draft.ghosts_append]
    simp [Draft.ghosts, ChangeRun.place, ChangeRun.texts, streams.width, traces.width]
  · rcases traces.joins (streams.opened.trans some) change with ⟨above, run, same, filled, joined⟩
    rcases traces.last_run same with ⟨_, last, before, texts⟩
    have start : Draft.size front = row + ChangeRun.place run := congrArg Block.start last
    rw [joined, ChangeRun.ghosts_snoc, ← before, Draft.extend_open, Draft.ghosts_append]
    simp [Draft.ghosts, ChangeRun.place_append filled, start, texts, ChangeRun.texts]

/-! ## One line -/

theorem Traces.changed (traces : session.Traces stream row done draft)
    (change : op.line.isChange = true) {added : List String}
    (reds : op.deleted.length = ChangeRun.count .removed [(op, done.length)])
    (greens : added.length = ChangeRun.count .added [(op, done.length)])
    (total : op.deleted.length + added.length = 1)
    (fits : (Draft.tracker (Draft.extend session.fresh op.deleted added draft)).fits = true)
    (committed : List String) :
    (session.recorded (Draft.extend session.fresh op.deleted added draft) session.mints
      committed).Traces stream row (done ++ [op])
        (Draft.extend session.fresh op.deleted added draft) where
  streams := traces.streams.extended total fits committed
  state := traces.state
  owner := traces.owner
  minted := traces.streams.mints_counted traces.minted op.deleted added
  width := by
    rw [List.length_append, ← Nat.add_assoc, ← traces.width]
    rfl
  single := by
    intro other member
    rcases List.mem_append.mp member with known | new
    · exact traces.single other known
    · rw [List.mem_singleton.mp new, reds]
      simp [ChangeRun.count]
  blocks := traces.blocks_extend change reds greens
  ghosts := traces.ghosts_extend change added
  opened := by
    have opened := traces.streams.openRun_extend op.deleted added
    rw [List.getLast?_concat, Option.any_some, change]
    simp [recorded, opened]

theorem Traces.keeps (traces : session.Traces stream row done draft)
    (kept : op.line.kind = .same) (nothing : op.deleted = []) (text : String)
    (committed : List String) :
    (session.recorded (draft ++ [.kept text]) session.registry.minted committed).Traces stream row
      (done ++ [op]) (draft ++ [.kept text]) := by
  have still : op.line.isChange = false := by simp [DiffLine.isChange, kept]
  have runs : Applied.runs (done ++ [op]) = Applied.runs done := by
    rw [Applied.runs_snoc_apart, still]
    · simp
    · simp [still]
  refine ⟨traces.streams.kept text committed, traces.state, traces.owner, ?_, ?_, ?_, ?_, ?_, ?_⟩
  · simp [recorded, traces.minted]
  · rw [List.length_append, ← Nat.add_assoc, ← traces.width]
    rfl
  · intro other member
    rcases List.mem_append.mp member with known | new
    · exact traces.single other known
    · rw [List.mem_singleton.mp new, nothing, kept]
      rfl
  · rw [runs, ← traces.blocks]
    simp [Draft.blocks_append, Draft.blocks]
  · rw [runs, ← traces.ghosts]
    simp [Draft.ghosts_append, Draft.ghosts]
  · simp [recorded, Draft.openRun, still]

theorem Traces.line (traces : session.Traces stream row done draft) {line : DiffLine}
    {turn : Turn Unit} (applied : session.applyLine buffer line = .ok turn)
    (outcome : turn.outcome = .ok ()) : ∃ later, turn.session.Traces stream row
      (done ++ [⟨line, buffer.lines.diff turn.buffer.lines⟩]) later := by
  have streams := traces.streams
  unfold Session.applyLine at applied
  split at applied
  · simp only [streams.bufferLine_cursor] at applied
    rcases line with ⟨kind, text⟩
    cases kind with
    | same =>
        by_cases present : (Draft.lines draft).length < buffer.lineCount
        · rw [streams.applySame present text ""] at applied
          cases applied
          refine ⟨_, traces.keeps rfl ?_ "" _⟩
          have nothing := Buffer.diff_front buffer.lines []
          rwa [List.append_nil] at nothing
        · rw [Session.applySame, if_neg present] at applied
          cases applied
          cases outcome
    | removed =>
        by_cases present : (Draft.lines draft).length < buffer.lineCount
        · have found := List.getElem?_eq_getElem present
          rcases (streams.applyRemoved found).mp applied with ⟨fits, rfl⟩
          simp only [Buffer.diff_cut found]
          exact ⟨_, @Traces.changed _ _ _ _ _ ⟨⟨.removed, text⟩, [_]⟩ traces rfl [] rfl rfl rfl
            fits _⟩
        · rw [Session.applyRemoved, if_neg present] at applied
          cases applied
          cases outcome
    | added =>
        by_cases place : (Draft.lines draft).length ≤ buffer.lineCount
        · rcases (streams.applyAdded place text).mp applied with ⟨fits, rfl⟩
          simp only [Buffer.diff_insert]
          exact ⟨_, @Traces.changed _ _ _ _ _ ⟨⟨.added, text⟩, []⟩ traces rfl [text] rfl rfl rfl
            fits _⟩
        · rw [Session.applyAdded, Buffer.insert, if_neg place] at applied
          cases applied
          cases outcome
  · cases applied
    cases outcome

/-! ## A whole stream -/

theorem start_traces {bufferId : BufferId} {range : LineRange}
    (started : Session.start bufferId stream buffer range = .ok session) :
    session.Traces stream range.first [] ((buffer.lines.take range.first).map .kept) := by
  have streams := start_streams started
  unfold Session.start at started
  split at started
  · cases started
    refine ⟨streams, rfl, rfl, ?_, rfl, ?_, ?_, ?_, rfl⟩
    · rw [Draft.ids_kept]
      rfl
    · intro op member
      exact absurd member List.not_mem_nil
    · exact Draft.blocks_kept 0 _
    · exact Draft.ghosts_kept 0 _
  · cases started

theorem Traces.congr (traces : session.Traces stream row done draft)
    (state : next.state = session.state) (tracker : next.tracker = session.tracker)
    (registry : next.registry = session.registry) (cursor : next.cursor = session.cursor)
    (openRun : next.openRun = session.openRun) : next.Traces stream row done draft where
  streams := traces.streams.congr tracker registry cursor openRun
  state := state.trans traces.state
  owner := by rw [registry, traces.owner]
  minted := by rw [registry, traces.minted]
  width := by rw [cursor, traces.width]
  single := traces.single
  blocks := traces.blocks
  ghosts := traces.ghosts
  opened := by rw [openRun, traces.opened]

/-- As long as a session goes on streaming, nothing but a line moves its rows. -/
theorem Traces.other (traces : session.Traces stream row done draft)
    (coherent : session.Coherent) {operation : Operation}
    (own : ∀ line, operation ≠ .line line)
    (performed : session.perform buffer operation = .ok (next, after))
    (streaming : next.state = .streaming) : next.Traces stream row done draft := by
  have state := traces.state
  cases operation with
  | begin =>
      simp only [Session.perform] at performed
      split at performed
      · rename_i begun
        cases performed
        rcases beginRun_eq_ok begun with ⟨_, _, _, rfl⟩
        exact traces.congr rfl rfl rfl rfl rfl
      · cases performed
        exact traces
  | line line => exact absurd rfl (own line)
  | finish =>
      cases performed
      rcases finish_streaming state buffer with ⟨_, closed⟩ | ⟨_, _, rfl, reviewed⟩
      · rw [closed] at streaming
        cases streaming
      · rw [reviewed] at streaming
        cases streaming
  | take =>
      cases performed
      exact traces.congr rfl rfl rfl rfl rfl
  | resolve id accept =>
      rcases bind_eq_ok.mp performed with ⟨turn, resolved, last⟩
      cases last
      rw [Session.resolve, if_neg (by simp [state])] at resolved
      cases resolved
      exact traces
  | clear accept =>
      rcases bind_eq_ok.mp performed with ⟨turn, cleared, last⟩
      cases last
      rcases coherent.clear_or_refuse cleared with ⟨kept, rfl⟩ | ⟨_, error, rfl⟩
      · cases streaming
      · exact traces
  | discard =>
      cases performed
      cases streaming
  | edit line delta =>
      rcases bind_eq_ok.mp performed with ⟨turn, applied, last⟩
      cases last
      have deaf : session.listening = false := (coherent.under_way state).choose_spec.2
      rw [applyEdit, if_neg (by simp [deaf])] at applied
      cases applied
      exact traces

theorem Streamed.traces (streamed : session.Streamed more next) (coherent : session.Coherent)
    (traces : session.Traces stream row done draft) :
    next.Coherent ∧ ∃ later, next.Traces stream row (done ++ more) later := by
  induction streamed with
  | here =>
      rw [List.append_nil]
      exact ⟨coherent, draft, traces⟩
  | line _ applied outcome ih =>
      rcases ih with ⟨coherent, middle, traced⟩
      rw [← List.append_assoc]
      exact ⟨coherent.line applied, traced.line applied outcome⟩
  | other _ own performed streaming ih =>
      rcases ih with ⟨coherent, middle, traced⟩
      exact ⟨coherent.perform performed, middle,
        traced.other coherent own performed streaming⟩
  | fire _ ih =>
      rcases ih with ⟨coherent, middle, traced⟩
      exact ⟨coherent.fire, middle, traced.congr rfl rfl rfl rfl rfl⟩

theorem Traces.shaped (traces : session.Traces stream row done draft) :
    session.Shaped stream row done where
  blocks := traces.streams.tracks.blocks.trans traces.blocks
  ghosts := traces.streams.tracks.ghosts.trans traces.ghosts
  added := traces.streams.tracks.tiled.added

theorem Shaped.ghosts_prefix (shaped : session.Shaped stream row done)
    (later : next.Shaped stream row (done ++ more)) :
    session.tracker.ghosts <+: next.tracker.ghosts := by
  rw [shaped.ghosts, later.ghosts]
  exact Applied.ghosts_prefix row done more

/-- Whatever is applied to it, a block stays where its first line was, and no other line than a
change right behind a change touches a block that is there. -/
theorem Shaped.blocks_prefix (shaped : session.Shaped stream row done)
    (later : next.Shaped stream row (done ++ more)) :
    session.registry.blocks.map (fun block => (block.id, block.start)) <+:
        next.registry.blocks.map (fun block => (block.id, block.start)) ∧
      session.registry.blocks.dropLast <+: next.registry.blocks := by
  rw [shaped.blocks, later.blocks]
  exact Applied.blocks_prefix stream row done more

/-- Streaming makes one block for every longest run of changes, in the order of the stream. A block
has its id and its start from the first line of its run, only the lines of the run go into it, and
its ghosts are the lines they deleted. -/
theorem Streamed.blocks_are_runs {bufferId : BufferId} {range : LineRange}
    (started : Session.start bufferId stream buffer range = .ok session)
    (streamed : session.Streamed done next) :
    next.Shaped stream range.first done ∧ ∀ more later, next.Streamed more later →
      later.Shaped stream range.first (done ++ more) ∧
      next.tracker.ghosts <+: later.tracker.ghosts ∧
      next.registry.blocks.map (fun block => (block.id, block.start)) <+:
        later.registry.blocks.map (fun block => (block.id, block.start)) ∧
      next.registry.blocks.dropLast <+: later.registry.blocks ∧
      ((∀ last ∈ done.getLast?, last.line.isChange = false) →
        next.registry.blocks <+: later.registry.blocks) := by
  rcases streamed.traces (start_coherent started) (start_traces started) with
    ⟨coherent, draft, traces⟩
  rw [List.nil_append] at traces
  have shaped := traces.shaped
  refine ⟨shaped, ?_⟩
  intro more later goes
  rcases goes.traces coherent traces with ⟨_, _, traced⟩
  have after := traced.shaped
  rcases shaped.blocks_prefix after with ⟨starts, higher⟩
  refine ⟨after, shaped.ghosts_prefix after, starts, higher, ?_⟩
  intro closed
  rw [shaped.blocks, after.blocks]
  apply ChangeRun.blocks_prefix
  apply Applied.runs_append_apart
  intro last ends next starts
  rw [closed last ends, Bool.false_and]

def appliedLines (session : Session) (buffer : Buffer) : List DiffLine → List Applied
  | [] => []
  | line :: later =>
      match session.applyLine buffer line with
      | .error _ => []
      | .ok turn => ⟨line, buffer.lines.diff turn.buffer.lines⟩ ::
          turn.session.appliedLines turn.buffer later

theorem Streamed.each {lines : List DiffLine} {turn : Turn Unit}
    (streamed : session.Streamed done next) (applied : next.applyEach buffer lines = .ok turn)
    (outcome : turn.outcome = .ok ()) :
    session.Streamed (done ++ next.appliedLines buffer lines) turn.session := by
  induction lines generalizing done next buffer turn with
  | nil =>
      cases applied
      rw [appliedLines, List.append_nil]
      exact streamed
  | cons line later ih =>
      rcases bind_eq_ok.mp applied with ⟨middle, applies, rest⟩
      cases ends : middle.outcome with
      | error error =>
          rw [ends] at rest
          cases rest
          rw [ends] at outcome
          cases outcome
      | ok _ =>
          rw [ends] at rest
          rcases bind_eq_ok.mp rest with ⟨last, others, same⟩
          cases same
          simp only [appliedLines, applies]
          rw [List.append_cons]
          exact ih (streamed.line applies ends) others outcome

theorem Streamed.leaves {lines : List DiffLine} {last : Session}
    (streamed : session.Streamed done next)
    (applied : (do
      let turn ← next.applyEach buffer lines
      return (turn.session, turn.outcome, next.appliedLines buffer lines)) =
        .ok (last, .ok (), more)) :
    session.Streamed (done ++ more) last := by
  rcases bind_eq_ok.mp applied with ⟨⟨next, kept, events, outcome⟩, applies, same⟩
  cases same
  exact streamed.each applies rfl

def twoRuns (tracker : Tracker) (blocks : List Block) (applied : Nat) (openRun : Option OpenRun)
    (committed : List String) : Session where
  bufferId := ⟨"t"⟩
  stream := ⟨1⟩
  state := .streaming
  range := ⟨0, 2⟩
  initial := ["a", "b", "c"]
  tracker := tracker
  registry := ⟨⟨1⟩, blocks.length, blocks⟩
  cursor := applied
  openRun := openRun
  committed := committed
  applied := applied
  running := true
  listening := false
  cancelled := false

/-- A line is added and the one below it removed, and so again two lines on. The first block has
its ghost above the line that was there before, and the later lines leave it alone. -/
theorem twoRuns_shaped : ∃ session next later,
    Session.start ⟨"t"⟩ ⟨1⟩ ⟨["a", "b", "c"]⟩ ⟨0, 2⟩ = .ok session ∧
      session.Streamed [⟨⟨.added, "x"⟩, []⟩, ⟨⟨.removed, "a"⟩, ["a"]⟩, ⟨⟨.same, "b"⟩, []⟩] next ∧
      next.Streamed [⟨⟨.removed, "c"⟩, ["c"]⟩, ⟨⟨.added, "y"⟩, []⟩] later ∧
      next.registry.blocks = [⟨⟨⟨1⟩, 0⟩, 0, 1, 1⟩] ∧
      next.registry.blocks <+: later.registry.blocks ∧
      later.registry.blocks = [⟨⟨⟨1⟩, 0⟩, 0, 1, 1⟩, ⟨⟨⟨1⟩, 1⟩, 3, 1, 1⟩] ∧
      later.tracker.ghosts = [⟨0, "a"⟩, ⟨3, "c"⟩] := by
  have started : Session.start ⟨"t"⟩ ⟨1⟩ ⟨["a", "b", "c"]⟩ ⟨0, 2⟩ =
      .ok { twoRuns ⟨[], []⟩ [] 0 none [] with running := false } := rfl
  have begun : Streamed { twoRuns ⟨[], []⟩ [] 0 none [] with running := false } []
      (twoRuns ⟨[], []⟩ [] 0 none []) :=
    @Streamed.other _ _ _ _ ⟨["a", "b", "c"]⟩ ⟨["a", "b", "c"]⟩ .begin .here (by simp) rfl rfl
  have first : Streamed { twoRuns ⟨[], []⟩ [] 0 none [] with running := false }
      [⟨⟨.added, "x"⟩, []⟩, ⟨⟨.removed, "a"⟩, ["a"]⟩, ⟨⟨.same, "b"⟩, []⟩]
      (twoRuns ⟨[⟨1, 1⟩], [⟨0, "a"⟩]⟩ [⟨⟨⟨1⟩, 0⟩, 0, 1, 1⟩] 3 none ["x", "b"]) := by
    apply @Streamed.leaves _ _ ⟨["a", "b", "c"]⟩ [] _
      [⟨.added, "x"⟩, ⟨.removed, "a"⟩, ⟨.same, "b"⟩] _ begun
    cbv
  have second : Streamed (twoRuns ⟨[⟨1, 1⟩], [⟨0, "a"⟩]⟩ [⟨⟨⟨1⟩, 0⟩, 0, 1, 1⟩] 3 none ["x", "b"])
      [⟨⟨.removed, "c"⟩, ["c"]⟩, ⟨⟨.added, "y"⟩, []⟩]
      (twoRuns ⟨[⟨1, 1⟩, ⟨4, 1⟩], [⟨0, "a"⟩, ⟨3, "c"⟩]⟩
        [⟨⟨⟨1⟩, 0⟩, 0, 1, 1⟩, ⟨⟨⟨1⟩, 1⟩, 3, 1, 1⟩] 5 (some ⟨3, 1⟩) ["x", "b", "y"]) := by
    apply @Streamed.leaves _ _ ⟨["x", "b", "c"]⟩ [] _ [⟨.removed, "c"⟩, ⟨.added, "y"⟩] _ .here
    cbv
  rcases first.blocks_are_runs started with ⟨_, goes⟩
  rcases goes _ _ second with ⟨shaped, _, _, _, closed⟩
  exact ⟨_, _, _, started, first, second, rfl, closed (by decide), shaped.blocks, shaped.ghosts⟩

end Session
end Redline
