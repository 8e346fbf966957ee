import Redline.CommandLine
import Redline.Proofs.Pacing

namespace Redline

open DiffLine (isRun groups taken)

theorem Draft.ids_settled_first {draft : List Passage} {id : BlockId} {rest : List BlockId}
    (first : ids draft = id :: rest) (distinct : (ids draft).Nodup) (accept : Bool) :
    ids (settled (only id accept) draft) = rest := by
  rw [first, List.nodup_cons] at distinct
  have decided : (only id accept id).isNone = false := by
    rw [only, if_pos rfl]
    rfl
  rw [ids_settled, first, List.filter_cons, decided, if_neg Bool.false_ne_true,
    List.filter_eq_self]
  intro other member
  have different : other ≠ id := fun same => distinct.1 (same ▸ member)
  rw [only, if_neg different]
  rfl

theorem Session.Tracks.resolve_ok {session : Session} {buffer : Buffer} {draft : List Passage}
    {block : BlockId} (tracks : session.Tracks draft) (state : session.state = .reviewing)
    (shown : buffer.lines = Draft.lines draft) (small : Draft.size draft ≤ countLimit)
    (known : block ∈ Draft.ids draft) (accept : Bool) :
    let settled := Draft.settled (Draft.only block accept) draft
    ∃ turn resolution, session.resolve buffer block accept = .ok turn ∧
      turn.outcome = .ok resolution ∧ turn.session.stream = session.stream ∧
      turn.buffer.lines = Draft.lines settled ∧
      (Draft.ids settled = [] ∧ resolution.closed = true ∨
        Draft.ids settled ≠ [] ∧ resolution.closed = false ∧
          turn.session.state = .reviewing ∧ turn.session.Tracks settled) := by
  intro settled
  rcases tracks.resolve_shown state shown small known accept with ⟨settles, resolved, turned⟩
  have count := settles.length_blocks
  by_cases plain : Draft.ids settled = []
  · rw [settles.concluded_plain plain] at turned
    refine ⟨_, _, turned, rfl, rfl, rfl, .inl ⟨plain, ?_⟩⟩
    rw [count, plain]
    rfl
  · rw [settles.concluded_busy plain] at turned
    refine ⟨_, _, turned, rfl, rfl, rfl, .inr ⟨plain, ?_, state, settles⟩⟩
    rw [count, beq_eq_false_iff_ne]
    exact fun none => plain (List.eq_nil_of_length_eq_zero none)

namespace Manager

variable {manager : Manager} {handle : Handle} {opened : Opened} {draft : List Passage}
  {block : BlockId}

/-- A document shows a draft, and its session is on the table as long as the draft has changes. -/
structure UnderReview (manager : Manager) (handle : Handle) (opened : Opened)
    (draft : List Passage) : Prop where
  consistent : manager.Consistent
  found : manager.sessions.get? handle.stream = some opened
  current : manager.current.get? handle.buffer =
    if Draft.ids draft = [] then none else some handle.stream
  shown : (manager.document opened.document).lines = Draft.lines draft
  reviews : Draft.ids draft ≠ [] → opened.session.state = .reviewing ∧ opened.session.Tracks draft

theorem UnderReview.opens (review : manager.UnderReview handle opened draft)
    (busy : Draft.ids draft ≠ []) : manager.opened? handle.buffer = some opened := by
  rw [opened?, review.current, if_neg busy, Option.bind_some, review.found]

theorem UnderReview.blocks (review : manager.UnderReview handle opened draft) :
    manager.blocks handle.buffer = Draft.blocks 0 draft := by
  rw [Manager.blocks]
  by_cases plain : Draft.ids draft = []
  · rw [opened?, review.current, if_pos plain, Draft.blocks_plain plain]
    rfl
  · rw [review.opens plain]
    exact (review.reviews plain).2.blocks

theorem resolve_eq {id : BufferId} {accept : Bool} {turn : Turn Resolution}
    {resolution : Resolution} (opens : manager.opened? id = some opened)
    (turned : opened.session.resolve (manager.document opened.document) block accept = .ok turn)
    (outcome : turn.outcome = .ok resolution) :
    let held := manager.hold opened turn.session turn.buffer
    manager.resolve id block accept = .ok ⟨
      if resolution.closed then held.removeIfCurrent ⟨id, opened.session.stream⟩ else held,
      turn.events, .ok resolution⟩ := by
  intro held
  have taken : manager.operate opened (fun session buffer =>
      session.resolve buffer block accept) = .ok _ := operate_eq_ok.mpr ⟨turn, turned, rfl⟩
  rw [Manager.resolve, opens]
  simp only [taken, ok_bind, outcome]
  cases resolution.closed with
  | true => rfl
  | false => rfl

theorem UnderReview.resolve (review : manager.UnderReview handle opened draft)
    (small : Draft.size draft ≤ countLimit) (known : block ∈ Draft.ids draft) (accept : Bool) :
    ∃ later next events resolution,
      manager.resolve handle.buffer block accept = .ok ⟨later, events, .ok resolution⟩ ∧
      later.UnderReview handle { opened with session := next }
        (Draft.settled (Draft.only block accept) draft) := by
  have busy : Draft.ids draft ≠ [] := List.ne_nil_of_mem known
  rcases review.reviews busy with ⟨state, tracks⟩
  rcases tracks.resolve_ok state review.shown small known accept with
    ⟨turn, resolution, turned, outcome, same, shown, ends⟩
  have stream : opened.session.stream = handle.stream := (review.consistent.filed review.found).1
  have found : handle.stream = turn.session.stream := by rw [same, stream]
  have carried := resolve_eq (review.opens busy) turned outcome
  have consistent := (review.consistent.resolve carried).consistent review.consistent
  rw [stream] at carried consistent
  refine ⟨_, turn.session, _, _, carried, ?_⟩
  rcases ends with ⟨plain, closed⟩ | ⟨more, closed, reviewing, settles⟩
  · rw [if_pos closed] at consistent ⊢
    refine ⟨consistent, ?_, ?_, ?_, fun more => absurd plain more⟩
    · rw [sessions_removeIfCurrent, get?_hold, if_pos found]
    · rw [get?_removeIfCurrent, if_pos plain]
      exact if_pos ⟨rfl, review.current.trans (if_neg busy)⟩
    · rw [document_removeIfCurrent, document_hold, if_pos rfl, shown]
  · rw [closed, if_neg Bool.false_ne_true] at consistent ⊢
    refine ⟨consistent, ?_, ?_, ?_, fun _ => ⟨reviewing, settles⟩⟩
    · rw [get?_hold, if_pos found]
    · rw [if_neg more]
      exact review.current.trans (if_neg busy)
    · rw [document_hold, if_pos rfl, shown]

variable {range : LineRange} {begun : Session} {turn : Turn Unit}

theorem start_fits {name : String} (id : BufferId) (ordered : range.first ≤ range.last)
    (inside : range.last < (manager.document name).lineCount) :
    ∃ later, manager.start id name range = ⟨later, [], .ok ⟨id, ⟨manager.started + 1⟩⟩⟩ := by
  rw [Manager.start, Session.start, if_pos ⟨ordered, inside⟩]
  exact ⟨_, rfl⟩

theorem Launched.reviews (launched : Launched manager handle range opened begun)
    {ops : List DiffLine}
    (applied : begun.applyEach (manager.document opened.document) ops = .ok turn)
    (failure : Option String) :
    let lines := (manager.document opened.document).lines
    let part := DiffLine.applicable
      ((manager.document opened.document).lineCount - range.first) ops
    let progress := Run.closing (manager.setSession { opened with session := begun }) handle
      { opened with session := begun } turn failure
    progress.manager.UnderReview handle
      { opened with session := turn.session.ended turn.buffer }
      (Draft.ofStream handle.stream range.first part lines) := by
  intro lines part progress
  rcases launched.closes applied failure with ⟨consistent, documents, sessions, current, _⟩
  rcases launched.applies applied with ⟨_, _, midway⟩
  have changes := Draft.ids_ofStream_eq_nil handle.stream range.first part lines
  refine ⟨consistent, sessions, ?_, ?_, ?_⟩
  · by_cases plain : Draft.ids (Draft.ofStream handle.stream range.first part lines) = []
    · rw [if_pos plain]
      exact current.trans (if_neg (Bool.eq_false_iff.mp (changes.mp plain)))
    · rw [if_neg plain]
      exact current.trans (if_pos (Bool.of_not_eq_false fun none => plain (changes.mpr none)))
  · rw [documents, if_pos rfl]
    exact midway.tracks.2
  · intro busy
    rcases midway.finish with ⟨plain, _⟩ | ⟨_, reviewing, tracks⟩
    · exact absurd plain busy
    · exact ⟨reviewing, tracks.congr rfl rfl⟩

/-- The draft that a run leaves has no more rows than its document and its stream have lines. -/
theorem Launched.size_le (launched : Launched manager handle range opened begun)
    {ops : List DiffLine}
    (applied : begun.applyEach (manager.document opened.document) ops = .ok turn) :
    let lines := (manager.document opened.document).lines
    let part := DiffLine.applicable
      ((manager.document opened.document).lineCount - range.first) ops
    Draft.size (Draft.ofStream handle.stream range.first part lines) ≤
      range.first + lines.length + ops.length := by
  intro lines part
  rcases launched.applies applied with ⟨_, applies, midway⟩
  have fewer : part.length ≤ ops.length := DiffLine.length_applicable_le _ ops
  have width : Draft.size ((lines.take range.first).map .kept ++
      Draft.ofGroups handle.stream 0 (groups part) (lines.drop range.first)) =
        range.first + part.length := by
    apply midway.streams.width.trans
    rw [applies.cursor, launched.cursor]
  rw [Draft.ofStream, Draft.size_append, width, Draft.size_kept, List.length_drop,
    List.length_drop]
  omega

end Manager

namespace CommandLine

variable {manager : Manager} {handle : Handle} {opened : Opened} {draft : List Passage}

theorem resolveAll_done {id : BufferId} (none : manager.blocks id = []) (resolution : Resolution)
    (index rounds : Nat) :
    resolveAll manager id resolution index rounds = .ok (index, manager) := by
  rw [resolveAll.eq_def, none]

theorem resolveAll_stuck {id : BufferId} {block : Block} {rest : List Block}
    (more : manager.blocks id = block :: rest) (resolution : Resolution) (index : Nat) :
    resolveAll manager id resolution index 0 = .error .endless := by
  rw [resolveAll.eq_def, more]

theorem resolveAll_round {id : BufferId} {block : Block} {rest : List Block} {later : Manager}
    {events : List Event} {answer : Redline.Resolution} (more : manager.blocks id = block :: rest)
    {resolution : Resolution} {index : Nat} (resolved : manager.resolve id block.id
      (resolution.accepts index) = .ok ⟨later, events, .ok answer⟩) (rounds : Nat) :
    resolveAll manager id resolution index (rounds + 1) =
      resolveAll later id resolution (index + 1) rounds := by
  rw [resolveAll.eq_def, more]
  simp only [resolved]
  rfl

/-- The loop takes one round for every change of the draft, and the decisions of its rounds are
those of the resolution. -/
theorem resolveAll_reviewed {stream : StreamId} {index count : Nat}
    (review : manager.UnderReview handle opened draft) (small : Draft.size draft ≤ countLimit)
    (numbered : Draft.ids draft = (List.range' index count).map fun number => ⟨stream, number⟩)
    (resolution : Resolution) : ∃ last : Manager,
      (∀ rounds, resolveAll manager handle.buffer resolution index rounds =
        if rounds < count then .error .endless else .ok (index + count, last)) ∧
      (last.document opened.document).lines =
        Draft.outcome (fun id => resolution.accepts id.number) draft := by
  -- A round settles the first change and leaves the others in their order, so the draft of what is
  -- left to decide goes into the next round.
  induction count generalizing manager opened draft index with
  | zero =>
      have plain : Draft.ids draft = [] := numbered
      have none : manager.blocks handle.buffer = [] := by
        rw [review.blocks, Draft.blocks_plain plain]
      refine ⟨manager, fun rounds => resolveAll_done none resolution index rounds, ?_⟩
      rw [review.shown, Draft.lines_eq_outcome]
      apply Draft.outcome_congr
      intro id member
      rw [plain] at member
      exact absurd member List.not_mem_nil
  | succ count ih =>
      rw [List.range'_succ, List.map_cons] at numbered
      have first : (⟨stream, index⟩ : BlockId) ∈ Draft.ids draft := numbered ▸ List.mem_cons_self
      obtain ⟨block, rest, more, own⟩ : ∃ block rest,
          manager.blocks handle.buffer = block :: rest ∧ block.id = ⟨stream, index⟩ := by
        rw [← Draft.map_id_blocks 0, List.map_eq_cons_iff] at numbered
        rcases numbered with ⟨block, rest, blocks, own, _⟩
        exact ⟨block, rest, review.blocks.trans blocks, own⟩
      rw [← own] at first
      rcases review.resolve small first (resolution.accepts index) with
        ⟨later, next, events, answer, resolved, continues⟩
      have busy : Draft.ids draft ≠ [] := List.ne_nil_of_mem first
      rw [← own] at numbered
      have remaining := Draft.ids_settled_first numbered (review.reviews busy).2.distinct
        (resolution.accepts index)
      have narrow := Nat.le_trans (Draft.size_settled_le
        (Draft.only block.id (resolution.accepts index)) draft) small
      rcases ih continues narrow remaining with ⟨last, rounds, lines⟩
      refine ⟨last, ?_, ?_⟩
      · intro allowed
        cases allowed with
        | zero => exact resolveAll_stuck more resolution index
        | succ fewer =>
            rw [resolveAll_round more resolved, rounds, Nat.add_right_comm, Nat.add_assoc]
            simp only [Nat.add_lt_add_iff_right]
      · let choice (id : BlockId) : Bool := resolution.accepts id.number
        let decision := Draft.only block.id (resolution.accepts index)
        calc (last.document opened.document).lines
            = Draft.outcome choice (Draft.settled decision draft) := lines
          _ = Draft.outcome (fun id => (decision id).getD (choice id)) draft :=
              Draft.outcome_settled choice decision draft
          _ = Draft.outcome choice draft := by
              apply Draft.outcome_congr
              intro id _
              by_cases same : id = block.id
              · have decided : decision id = some (resolution.accepts index) := if_pos same
                rw [decided, same]
                exact congrArg (fun id : BlockId => resolution.accepts id.number) own.symm
              · have undecided : decision id = none := if_neg same
                rw [undecided]
                rfl

def streamed (plan : Plan) (text : String) (lines : List DiffLine) : Except Breakdown Manager := do
  let buffer := Buffer.ofText text
  let opened := (Manager.ofDocuments plan.settings.diff ⟨[(plan.file, buffer)]⟩).start ⟨plan.file⟩
    plan.file ⟨0, buffer.lineCount - 1⟩
  let handle ← opened.outcome.mapError .refused
  let progress ← (Run.whole opened.manager handle (lines.map .line)).mapError .fault
  return progress.manager

theorem merge_eq {plan : Plan} {channel : Channel Event}
    (created : Channel.create plan.settings.diff.eventCapacity = .ok channel) (text : String)
    (lines : List DiffLine) : merge plan text lines = do
      let manager ← streamed plan text lines
      let (_, last) ← resolveAll manager ⟨plan.file⟩ plan.resolution 0
        (manager.blocks ⟨plan.file⟩).length
      return (last.document plan.file).text := by
  rw [merge, streamed, created]
  simp only [bind_assoc]
  rfl

theorem streamed_reviews (plan : Plan) (text : String) (lines : List DiffLine)
    (words : (Buffer.ofText text).lineCount + lines.length ≤ countLimit) :
    let original := (Buffer.ofText text).lines
    let applied := DiffLine.applicable original.length lines
    let draft := Draft.ofStream ⟨1⟩ 0 applied original
    ∃ manager opened, streamed plan text lines = .ok manager ∧ opened.document = plan.file ∧
      manager.UnderReview ⟨⟨plan.file⟩, ⟨1⟩⟩ opened draft ∧ Draft.size draft ≤ countLimit := by
  intro original applied draft
  let blank := Manager.ofDocuments plan.settings.diff ⟨[(plan.file, Buffer.ofText text)]⟩
  have shown : blank.document plan.file = Buffer.ofText text := by
    rw [Manager.document]
    simp [blank, Manager.ofDocuments, Table.get?]
  have consistent : blank.Consistent := Manager.ofDocuments_consistent _ _
  have inside : (Buffer.ofText text).lineCount - 1 < (blank.document plan.file).lineCount := by
    rw [shown]
    exact Nat.sub_one_lt_of_lt (Buffer.lineCount_ofText_pos text)
  rcases @Manager.start_fits blank ⟨0, _⟩ plan.file ⟨plan.file⟩ (Nat.zero_le _) inside with
    ⟨manager, started⟩
  rcases consistent.fresh started with ⟨_, documents, session, fresh⟩
  rcases fresh.launched with ⟨begun, launched⟩
  have same : manager.document plan.file = Buffer.ofText text := (documents _).trans shown
  have small : 0 + lines.length < rowLimit := by
    unfold countLimit at words
    unfold rowLimit
    omega
  rcases launched.performs small with ⟨turn, applied⟩
  have reviews := launched.reviews applied none
  have size := launched.size_le applied
  simp only [same] at reviews size
  refine ⟨_, _, ?_, rfl, reviews, ?_⟩
  · rw [streamed, started]
    show (do
      let progress ← (Run.whole manager _ (lines.map .line)).mapError Breakdown.fault
      return progress.manager) = _
    rw [launched.lines, applied]
    rfl
  · apply Nat.le_trans size
    rw [Nat.zero_add]
    exact words

variable {plan : Plan} {channel : Channel Event} {text : String} {lines : List DiffLine}

/-- The loop ends in the round behind the last run of the applied script, and leaves the text with
the runs merged into it as the resolution says. -/
theorem streamed_resolves
    (words : (Buffer.ofText text).lineCount + lines.length ≤ countLimit) :
    let original := (Buffer.ofText text).lines
    let applied := DiffLine.applicable original.length lines
    let runs := (groups applied).countP isRun
    ∃ manager last, streamed plan text lines = .ok manager ∧
      (manager.blocks ⟨plan.file⟩).length = runs ∧
      (∀ rounds, resolveAll manager ⟨plan.file⟩ plan.resolution 0 rounds =
        if rounds < runs then .error .endless else .ok (runs, last)) ∧
      (last.document plan.file).lines =
        DiffLine.mergedText plan.resolution.accepts 0 applied original := by
  intro original applied runs
  rcases streamed_reviews plan text lines words with ⟨manager, opened, streams, own, review, small⟩
  have numbered := Draft.ids_ofStream ⟨1⟩ 0 applied original
  rcases resolveAll_reviewed review small numbered plan.resolution with ⟨last, rounds, merged⟩
  rw [Nat.zero_add] at rounds
  rw [own, Draft.outcome_ofStream] at merged
  refine ⟨manager, last, streams, ?_, rounds, merged⟩
  calc (manager.blocks ⟨plan.file⟩).length
      = (Draft.blocks 0 (Draft.ofStream ⟨1⟩ 0 applied original)).length :=
        congrArg List.length review.blocks
    _ = (Draft.ids (Draft.ofStream ⟨1⟩ 0 applied original)).length := by
        rw [← Draft.map_id_blocks 0, List.length_map]
    _ = runs := by rw [numbered, List.length_map, List.length_range']

theorem merge_ok (created : Channel.create plan.settings.diff.eventCapacity = .ok channel)
    (words : (Buffer.ofText text).lineCount + lines.length ≤ countLimit) :
    let original := (Buffer.ofText text).lines
    let applied := DiffLine.applicable original.length lines
    merge plan text lines =
      .ok (Buffer.mk (DiffLine.mergedText plan.resolution.accepts 0 applied original)).text := by
  intro original applied
  rcases @streamed_resolves plan text lines words with
    ⟨manager, last, streams, blocks, rounds, merged⟩
  calc merge plan text lines
      = (do
          let (_, last) ← resolveAll manager ⟨plan.file⟩ plan.resolution 0
            (manager.blocks ⟨plan.file⟩).length
          return (last.document plan.file).text) := by
        rw [merge_eq created, streams]
        rfl
    _ = .ok (last.document plan.file).text := by
        rw [blocks, rounds, if_neg (Nat.lt_irrefl _)]
        rfl
    _ = .ok (Buffer.mk (DiffLine.mergedText plan.resolution.accepts 0 applied original)).text := by
        rw [← merged]

variable {environment : List (String × String)} {arguments : List String} {files : Files}

/-- A script that cannot be read fails the program, and nothing is printed. Any other script ends in
the text with the runs of its applied part merged into it, one round for each run, and rejecting
them all prints the text as it was. Texts and scripts that fit a memory have fewer lines than
`countLimit`. -/
theorem run_prints_merged (planned : CommandLine.plan environment arguments = .ok plan)
    (created : Channel.create plan.settings.diff.eventCapacity = .ok channel)
    (decoded : FileError.decode (files.read plan.file) = .ok text) :
    let outcome := run environment arguments files
    (∀ error, Script.ofFile (files.read plan.script) = .error error →
      outcome.output = "" ∧ outcome.code ≠ 0) ∧
    ∀ lines, Script.ofFile (files.read plan.script) = .ok lines →
      (Buffer.ofText text).lineCount + lines.length ≤ countLimit →
      let original := (Buffer.ofText text).lines
      let applied := DiffLine.applicable original.length lines
      let runs := (groups applied).countP isRun
      let merged : Buffer := ⟨DiffLine.mergedText plan.resolution.accepts 0 applied original⟩
      outcome = .printed (merged.text ++ "\n") ∧
        (∃ manager last, streamed plan text lines = .ok manager ∧
          ∀ rounds, resolveAll manager ⟨plan.file⟩ plan.resolution 0 rounds =
            if rounds < runs then .error .endless else .ok (runs, last)) ∧
        (plan.resolution = .reject → outcome = .printed (text ++ "\n")) := by
  intro outcome
  have carried : outcome = plan.carryOut (files.read plan.file) (files.read plan.script) := by
    show run environment arguments files = _
    rw [run, planned]
  rw [carried, Plan.carryOut, decoded]
  constructor
  · intro error failed
    rw [failed]
    exact ⟨rfl, Nat.one_ne_zero⟩
  · intro lines parsed words original applied runs merged
    have merges := @merge_ok plan channel text lines created words
    rw [parsed]
    simp only [merges]
    refine ⟨rfl, ?_, ?_⟩
    · rcases @streamed_resolves plan text lines words with ⟨manager, last, streams, _, rounds, _⟩
      exact ⟨manager, last, streams, rounds⟩
    · intro reject
      have nothing : plan.resolution.accepts = fun _ => false := by
        rw [reject]
        rfl
      rw [nothing, DiffLine.mergedText_rejected]
      exact congrArg (fun text => Outcome.printed (text ++ "\n")) (Buffer.text_ofText text)

/-- Of two runs the second is rejected, or both are. The last line of the script finds nothing
left. -/
theorem twoRuns_print_merged :
    let script : List DiffLine :=
      [⟨.removed, "a"⟩, ⟨.added, "x"⟩, ⟨.same, "b"⟩, ⟨.removed, "c"⟩, ⟨.same, "d"⟩]
    let files : Files := ⟨[("f", "a\nb\nc".toUTF8), ("s", (Script.write script).toUTF8)]⟩
    let reviewed : Plan := ⟨.standard, "f", "s", .review⟩
    let rejected : Plan := ⟨.standard, "f", "s", .reject⟩
    ∃ channel : Channel Event, CommandLine.plan [] ["f", "s", "review"] = .ok reviewed ∧
      CommandLine.plan [] ["f", "s", "reject"] = .ok rejected ∧
      Channel.create Settings.standard.diff.eventCapacity = .ok channel ∧
      FileError.decode (files.read "f") = .ok "a\nb\nc" ∧
      Script.ofFile (files.read "s") = .ok script ∧
      (Buffer.ofText "a\nb\nc").lineCount + script.length ≤ countLimit ∧
      run [] ["f", "s", "review"] files = .printed "x\nb\nc\n" ∧
      run [] ["f", "s", "reject"] files = .printed "a\nb\nc\n" := by
  intro script files reviewed rejected
  have planned : CommandLine.plan [] ["f", "s", "review"] = .ok reviewed := by rfl
  have refused : CommandLine.plan [] ["f", "s", "reject"] = .ok rejected := by rfl
  obtain ⟨channel, created⟩ : ∃ channel : Channel Event,
      Channel.create Settings.standard.diff.eventCapacity = .ok channel := ⟨_, rfl⟩
  have decoded : FileError.decode (files.read "f") = .ok "a\nb\nc" := by decide +kernel
  have parsed : Script.ofFile (files.read "s") = .ok script := by decide +kernel
  have words : (Buffer.ofText "a\nb\nc").lineCount + script.length ≤ countLimit := by decide
  rcases run_prints_merged planned created decoded with ⟨_, prints⟩
  rcases prints script parsed words with ⟨merged, _⟩
  rcases run_prints_merged refused created decoded with ⟨_, keeps⟩
  rcases keeps script parsed words with ⟨_, _, unchanged⟩
  refine ⟨channel, planned, refused, created, decoded, parsed, words, merged.trans ?_,
    (unchanged rfl).trans ?_⟩
  · decide +kernel
  · decide +kernel

end CommandLine

end Redline
