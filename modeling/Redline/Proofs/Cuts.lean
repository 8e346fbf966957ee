import Redline.Proofs.Sync

namespace Redline

/-- Parts of a span that is cut at the given rows. Every row keeps its colour. -/
structure Span.CutAt (span : Span) (rows : List Nat) (parts : List Span) : Prop where
  starts : parts.map Span.start = span.start :: rows
  stops : parts.map Span.stop = rows ++ [span.stop]
  colours : ∀ part ∈ parts, ∀ row, part.start ≤ row → row < part.stop →
    (row < part.start + part.red ↔ row < span.start + span.red)

/-- Parts that start and stop at ascending rows, each where the one before it stops, hold rows and
do not reach into one another. -/
theorem parts_apart {parts : List Span} {start stop : Nat} {rows : List Nat}
    (starts : parts.map Span.start = start :: rows) (stops : parts.map Span.stop = rows ++ [stop])
    (ordered : (start :: (rows ++ [stop])).Pairwise (· < ·)) :
    (∀ part ∈ parts, start ≤ part.start ∧ part.start < part.stop ∧ part.stop ≤ stop) ∧
      parts.Pairwise fun first second => first.stop ≤ second.start := by
  induction parts generalizing start rows with
  | nil => simp at starts
  | cons part rest ih =>
      rw [List.map_cons] at starts stops
      rcases List.cons.inj starts with ⟨first, others⟩
      cases rows with
      | nil =>
          have none : rest = [] := List.map_eq_nil_iff.mp others
          subst none
          simp at stops ordered
          simp [first, stops, ordered]
      | cons row rows =>
          rcases List.cons.inj stops with ⟨last, behind⟩
          rcases List.pairwise_cons.mp ordered with ⟨below, later⟩
          have here := below row List.mem_cons_self
          rcases ih others behind later with ⟨inside, apart⟩
          have above := below stop (by simp)
          refine ⟨?_, List.pairwise_cons.mpr ⟨?_, apart⟩⟩
          · intro next member
            rcases List.mem_cons.mp member with rfl | member
            · have reached := (List.pairwise_cons.mp later).1 stop (by simp)
              omega
            · have bounds := inside next member
              omega
          · intro next member
            have bounds := inside next member
            omega

namespace Registry

variable {registry next : Registry} {span : Span} {spans : List Span} {minted : Nat}

def startsInside (registry : Registry) (span : Span) : List Nat :=
  (registry.blocks.map Block.start).filter fun row => decide (span.start < row ∧ row < span.stop)

/-! ## Cutting -/

theorem cut_ok {ghostStop start : Nat} {stops : List Nat}
    (ordered : (start :: stops).Pairwise (· < ·)) : ∃ parts,
      cut ghostStop start stops = .ok parts ∧
      parts.map Span.start = (start :: stops).dropLast ∧ parts.map Span.stop = stops ∧
      ∀ part ∈ parts, ∀ row, part.start ≤ row → row < part.stop →
        (row < part.start + part.red ↔ row < ghostStop) := by
  induction stops generalizing start with
  | nil => exact ⟨[], rfl, rfl, rfl, by simp⟩
  | cons stop stops ih =>
      rcases List.pairwise_cons.mp ordered with ⟨below, later⟩
      have here := below stop List.mem_cons_self
      obtain ⟨parts, cutUp, starts, ends, colours⟩ := ih later
      refine ⟨⟨start, max start (min ghostStop stop) - start,
        stop - max start (min ghostStop stop)⟩ :: parts, ?_, ?_, ?_, ?_⟩
      · rw [cut_cons stops (Nat.le_of_lt here), cutUp]
        rfl
      · rw [List.map_cons, starts]
        rfl
      · rw [List.map_cons, ends]
        simp only [Span.stop, List.cons.injEq, and_true]
        omega
      · intro part member row above under
        rcases List.mem_cons.mp member with rfl | member
        · simp only [Span.stop] at above under ⊢
          omega
        · exact colours part member row above under

theorem startsInside_ordered (ascending : registry.Ascending) (filled : span.start < span.stop) :
    (span.start :: (registry.startsInside span ++ [span.stop])).Pairwise (· < ·) := by
  have inside : ∀ row ∈ registry.startsInside span, span.start < row ∧ row < span.stop := by
    intro row member
    exact of_decide_eq_true (List.mem_filter.mp member).2
  refine List.pairwise_cons.mpr ⟨?_, List.pairwise_append.mpr ⟨ascending.filter _, by simp, ?_⟩⟩
  · intro row member
    rcases List.mem_append.mp member with member | last
    · exact (inside row member).1
    · rwa [List.mem_singleton.mp last]
  · intro row member stop last
    rw [List.mem_singleton.mp last]
    exact (inside row member).2

theorem cutsOf_eq_startsInside (ascending : registry.Ascending) (span : Span) :
    registry.cutsOf span span.stop = registry.startsInside span := by
  rw [cutsOf_eq ascending, startsInside]
  simp only [Bool.decide_and]

theorem split_ok (ascending : registry.Ascending) (filled : span.start < span.stop)
    (fits : span.stop < rowLimit) :
    ∃ parts, registry.split span = .ok parts ∧ span.CutAt (registry.startsInside span) parts := by
  obtain ⟨parts, cutUp, starts, stops, colours⟩ :=
    @cut_ok (span.start + span.red) _ _ (startsInside_ordered ascending filled)
  refine ⟨parts, ?_, ?_, stops, colours⟩
  · rw [split_eq fits, cutsOf_eq_startsInside ascending, cutUp]
  · rw [starts, ← List.cons_append, List.dropLast_concat]

theorem flatMap_parts_apart {parts : Span → List Span} (ascending : registry.Ascending)
    (apart : spans.Pairwise fun first second => first.stop ≤ second.start)
    (filled : ∀ span ∈ spans, span.start < span.stop)
    (cuts : ∀ span ∈ spans, span.CutAt (registry.startsInside span) (parts span)) :
    (∀ span ∈ spans, ∀ part ∈ parts span,
      span.start ≤ part.start ∧ part.start < part.stop ∧ part.stop ≤ span.stop) ∧
    (spans.flatMap parts).Pairwise fun first second => first.stop ≤ second.start := by
  have each : ∀ span ∈ spans,
      (∀ part ∈ parts span,
        span.start ≤ part.start ∧ part.start < part.stop ∧ part.stop ≤ span.stop) ∧
      (parts span).Pairwise fun first second => first.stop ≤ second.start := by
    intro span member
    exact parts_apart (cuts span member).starts (cuts span member).stops
      (startsInside_ordered ascending (filled span member))
  refine ⟨fun span member => (each span member).1, List.pairwise_flatMap.mpr
    ⟨fun span member => (each span member).2, apart.imp_of_mem ?_⟩⟩
  intro first second inFirst inSecond below left inLeft right inRight
  have reached := (each first inFirst).1 left inLeft
  have started := (each second inSecond).1 right inRight
  omega

/-! ## Handing on ids -/

/-- The ids of a registry are distinct, and it has handed out its own before. -/
structure Named (registry : Registry) : Prop where
  distinct : (registry.blocks.map Block.id).Nodup
  issued : ∀ block ∈ registry.blocks,
    block.id.stream = registry.stream → block.id.number < registry.minted

theorem exists_of_idAt? {start : Nat} {id : BlockId} (found : registry.idAt? start = some id) :
    ∃ known ∈ registry.blocks, known.start = start ∧ known.id = id := by
  unfold idAt? at found
  split at found
  · simp at found
  · split at found
    · rename_i known present
      split at found
      · rename_i here
        exact ⟨known, List.mem_of_getElem? present, here, Option.some.inj found⟩
      · simp at found
    · simp at found

theorem idAt?_eq_none_iff (ascending : registry.Ascending) {start : Nat} :
    registry.idAt? start = none ↔ start ∉ registry.blocks.map Block.start := by
  constructor
  · intro none known
    obtain ⟨block, member, rfl⟩ := List.mem_map.mp known
    rw [idAt?_of_mem ascending member] at none
    simp at none
  · intro unknown
    apply idAt?_eq_none
    rintro block member rfl
    exact unknown (List.mem_map_of_mem member)

theorem adopt_cons_some {id : BlockId} (found : registry.idAt? span.start = some id)
    (minted : Nat) (spans : List Span) : registry.adopt minted (span :: spans) =
      ((registry.adopt minted spans).1,
        ⟨id, span.start, span.red, span.green⟩ :: (registry.adopt minted spans).2) := by
  simp only [adopt, found]

theorem adopt_cons_none (fresh : registry.idAt? span.start = none) (minted : Nat)
    (spans : List Span) : registry.adopt minted (span :: spans) =
      ((registry.adopt (minted + 1) spans).1,
        ⟨⟨registry.stream, minted⟩, span.start, span.red, span.green⟩ ::
          (registry.adopt (minted + 1) spans).2) := by
  simp only [adopt, fresh]

theorem spans_adopt (minted : Nat) (spans : List Span) :
    (registry.adopt minted spans).2.map Block.span = spans := by
  induction spans generalizing minted with
  | nil => rfl
  | cons span rest ih =>
      cases found : registry.idAt? span.start with
      | some id => rw [adopt_cons_some found, List.map_cons, ih]; rfl
      | none => rw [adopt_cons_none found, List.map_cons, ih]; rfl

theorem minted_adopt (minted : Nat) (spans : List Span) :
    (registry.adopt minted spans).1 = minted +
      (registry.adopt minted spans).2.countP fun block => (registry.idAt? block.start).isNone := by
  induction spans generalizing minted with
  | nil => rfl
  | cons span rest ih =>
      cases found : registry.idAt? span.start with
      | some id => rw [adopt_cons_some found, List.countP_cons, ih]; simp [found]
      | none =>
          rw [adopt_cons_none found, List.countP_cons, ih]
          simp [found, Nat.add_assoc, Nat.add_comm]

/-- A block has the id that was known at its start, or the next numbers in turn. -/
theorem id_adopt {block : Block} (member : block ∈ (registry.adopt minted spans).2) :
    registry.idAt? block.start = some block.id ∨
      registry.idAt? block.start = none ∧ block.id.stream = registry.stream ∧
        minted ≤ block.id.number ∧ block.id.number < (registry.adopt minted spans).1 := by
  induction spans generalizing minted with
  | nil => simp [adopt] at member
  | cons span rest ih =>
      cases found : registry.idAt? span.start with
      | some id =>
          rw [adopt_cons_some found] at member ⊢
          rcases List.mem_cons.mp member with rfl | member
          · exact .inl found
          · exact ih member
      | none =>
          rw [adopt_cons_none found] at member ⊢
          have more := @minted_adopt registry (minted + 1) rest
          rcases List.mem_cons.mp member with rfl | member
          · exact .inr ⟨found, rfl, Nat.le_refl _, by simp only; omega⟩
          · rcases ih member with known | ⟨none, stream, above, below⟩
            · exact .inl known
            · exact .inr ⟨none, stream, by omega, below⟩

theorem ids_adopt_distinct (named : registry.Named)
    (ordered : spans.Pairwise fun first second => first.start < second.start)
    (later : registry.minted ≤ minted) :
    ((registry.adopt minted spans).2.map Block.id).Nodup := by
  induction spans generalizing minted with
  | nil => exact List.nodup_nil
  | cons span rest ih =>
      rcases List.pairwise_cons.mp ordered with ⟨first, behind⟩
      have starts {count : Nat} : ∀ block ∈ (registry.adopt count rest).2,
          span.start < block.start := by
        intro block member
        apply first block.span
        rw [← @spans_adopt registry count rest]
        exact List.mem_map_of_mem member
      cases found : registry.idAt? span.start with
      | some id =>
          rw [adopt_cons_some found, List.map_cons, List.nodup_cons]
          refine ⟨?_, ih behind later⟩
          -- A later block with this id would be a known one further down or have a number of its
          -- own.
          intro again
          obtain ⟨known, present, here, rfl⟩ := exists_of_idAt? found
          obtain ⟨block, member, same⟩ := List.mem_map.mp again
          have same : block.id = known.id := same
          have below := starts block member
          rcases id_adopt member with elsewhere | ⟨_, stream, above, _⟩
          · obtain ⟨other, inside, there, twin⟩ := exists_of_idAt? elsewhere
            have one : other = known := List.inj_on_of_nodup_map named.distinct inside present
              (twin.trans same)
            rw [one] at there
            omega
          · have issued := named.issued known present (by rw [← same, stream])
            rw [← same] at issued
            omega
      | none =>
          rw [adopt_cons_none found, List.map_cons, List.nodup_cons]
          refine ⟨?_, ih behind (Nat.le_succ_of_le later)⟩
          intro again
          obtain ⟨block, member, same⟩ := List.mem_map.mp again
          have same : block.id = ⟨registry.stream, minted⟩ := same
          rcases id_adopt member with elsewhere | ⟨_, _, above, _⟩
          · obtain ⟨other, inside, _, twin⟩ := exists_of_idAt? elsewhere
            have issued := named.issued other inside (by rw [twin, same])
            rw [twin, same] at issued
            exact absurd issued (Nat.not_lt.mpr later)
          · rw [same] at above
            exact absurd above (Nat.not_succ_le_self minted)

def withParts (registry : Registry) (parts : List Span) : Registry where
  stream := registry.stream
  minted := (registry.adopt registry.minted parts).1
  blocks := (registry.adopt registry.minted parts).2

section WithParts

variable {parts : List Span} {block known : Block}

theorem spans_withParts (registry : Registry) (parts : List Span) :
    (registry.withParts parts).blocks.map Block.span = parts := spans_adopt _ _

theorem count_withParts (ascending : registry.Ascending) (parts : List Span) :
    (registry.withParts parts).minted - registry.minted = (registry.withParts parts).blocks.countP
      fun block => decide (block.start ∉ registry.blocks.map Block.start) := by
  have counted : (registry.withParts parts).minted = registry.minted +
      (registry.withParts parts).blocks.countP fun block =>
        (registry.idAt? block.start).isNone := minted_adopt _ _
  rw [counted, Nat.add_sub_cancel_left]
  apply List.countP_congr
  intro block _
  rw [Option.isNone_iff_eq_none, idAt?_eq_none_iff ascending, decide_eq_true_eq]

theorem id_of_start (ascending : registry.Ascending)
    (member : block ∈ (registry.withParts parts).blocks) (present : known ∈ registry.blocks)
    (same : known.start = block.start) : block.id = known.id := by
  have found := idAt?_of_mem ascending present
  rw [same] at found
  rcases id_adopt member with kept | ⟨none, _⟩
  · rw [found] at kept
    exact (Option.some.inj kept).symm
  · rw [found] at none
    simp at none

theorem id_of_new_start (ascending : registry.Ascending) (named : registry.Named)
    (member : block ∈ (registry.withParts parts).blocks)
    (unknown : block.start ∉ registry.blocks.map Block.start) :
    block.id ∉ registry.blocks.map Block.id := by
  intro known
  obtain ⟨other, present, same⟩ := List.mem_map.mp known
  rcases id_adopt member with kept | ⟨_, stream, above, _⟩
  · rw [(idAt?_eq_none_iff ascending).mpr unknown] at kept
    simp at kept
  · have issued := named.issued other present (by rw [same, stream])
    rw [same] at issued
    omega

theorem id_of_old_start (named : registry.Named) (present : known ∈ registry.blocks)
    (dropped : known.start ∉ (registry.withParts parts).blocks.map Block.start) :
    known.id ∉ (registry.withParts parts).blocks.map Block.id := by
  intro kept
  obtain ⟨block, member, same⟩ := List.mem_map.mp kept
  rcases id_adopt member with found | ⟨_, stream, above, _⟩
  · obtain ⟨other, inside, start, twin⟩ := exists_of_idAt? found
    have one : other = known :=
      List.inj_on_of_nodup_map named.distinct inside present (twin.trans same)
    rw [one] at start
    exact dropped (start ▸ List.mem_map_of_mem member)
  · have issued := named.issued known present (by rw [← same, stream])
    rw [← same] at issued
    omega

theorem Named.withParts (named : registry.Named)
    (ordered : parts.Pairwise fun first second => first.start < second.start) :
    (registry.withParts parts).Named where
  distinct := ids_adopt_distinct named ordered (Nat.le_refl _)
  issued := by
    intro block member own
    have more : (registry.withParts parts).minted = _ := minted_adopt registry.minted parts
    rcases id_adopt member with known | ⟨_, _, _, below⟩
    · obtain ⟨other, inside, _, same⟩ := exists_of_idAt? known
      have issued := named.issued other inside (by rw [same, own]; rfl)
      rw [same] at issued
      omega
    · exact below

end WithParts

/-! ## Registries as the operations leave them -/

theorem Named.sublist (named : registry.Named) (stream : next.stream = registry.stream)
    (minted : next.minted = registry.minted)
    (fewer : (next.blocks.map Block.id).Sublist (registry.blocks.map Block.id)) : next.Named where
  distinct := named.distinct.sublist fewer
  issued := by
    intro block member own
    rcases List.mem_map.mp (fewer.subset (List.mem_map_of_mem member)) with ⟨known, present, same⟩
    rw [minted, ← same]
    exact named.issued known present (by rw [same, own, stream])

theorem stop_of_ok {block : Block} {stop : Nat} (succeeds : block.stop = .ok stop) :
    block.span.stop = stop := by
  have exact_of_fit {row fitted : Nat} (fits : Row.fit row = .ok fitted) : row = fitted := by
    rw [Row.fit] at fits
    split at fits
    · exact Except.ok.inj fits
    · simp at fits
  obtain ⟨ghostStop, first, second⟩ := bind_eq_ok.mp succeeds
  rw [← exact_of_fit second, ← exact_of_fit first]
  rfl

theorem starts_of_checkOrder {blocks : List Block}
    (filled : ∀ block ∈ blocks, 0 < block.red + block.green)
    (clear : checkOrder blocks = .ok ()) :
    blocks.Pairwise fun first second => first.start < second.start := by
  induction blocks using checkOrder.induct with
  | case1 first second rest ih =>
      rw [checkOrder] at clear
      obtain ⟨stop, ends, clear⟩ := bind_eq_ok.mp clear
      have reached := stop_of_ok ends
      have whole := filled first List.mem_cons_self
      split at clear
      · simp [throw, throwThe, MonadExceptOf.throw, bind, Except.bind] at clear
      · have later :=
          ih (fun block member => filled block (List.mem_cons_of_mem first member)) clear
        refine List.pairwise_cons.mpr ⟨?_, later⟩
        simp only [Block.span, Span.stop] at reached
        intro last member
        rcases List.mem_cons.mp member with rfl | member
        · omega
        · have order := (List.pairwise_cons.mp later).1 last member
          omega
  | case2 blocks short =>
      rcases blocks with - | ⟨block, - | ⟨next, rest⟩⟩
      · exact List.Pairwise.nil
      · exact List.pairwise_singleton _ block
      · exact absurd rfl (short block next rest)

theorem starts_of_check (clear : registry.check = .ok ()) : registry.Ascending := by
  rw [check] at clear
  split at clear
  · simp at clear
  · rename_i none
    have filled : ∀ block ∈ registry.blocks, 0 < block.red + block.green := by
      intro block member
      have whole := List.find?_eq_none.mp none block member
      rw [beq_iff_eq] at whole
      exact Nat.pos_of_ne_zero whole
    exact List.pairwise_map.mpr (starts_of_checkOrder filled clear)

theorem sync_eq_ok {count : Nat} (succeeds : registry.sync spans = .ok (count, next)) :
    ∃ parts, next = registry.withParts parts ∧ next.check = .ok () := by
  rw [sync] at succeeds
  obtain ⟨parts, _, succeeds⟩ := bind_eq_ok.mp succeeds
  obtain ⟨_, clear, last⟩ := bind_eq_ok.mp succeeds
  obtain ⟨_, rfl⟩ := Prod.mk.inj (Except.ok.inj last)
  exact ⟨parts.flatten, rfl, clear⟩

theorem survivors_sublist {shift : RowShift} {blocks kept : List Block}
    (succeeds : survivors shift blocks = .ok kept) : kept.Sublist blocks := by
  induction blocks generalizing kept with
  | nil =>
      rw [← Except.ok.inj succeeds]
  | cons block rest ih =>
      rw [survivors] at succeeds
      obtain ⟨stays, _, succeeds⟩ := bind_eq_ok.mp succeeds
      obtain ⟨others, later, last⟩ := bind_eq_ok.mp succeeds
      have result := Except.ok.inj last
      rw [← result]
      split
      · exact (ih later).cons_cons block
      · exact (ih later).cons block

theorem ids_moved {blocks moved : List Block} {place : Nat → Except Fault Nat}
    (succeeds : (blocks.mapM fun block => do
      return { block with start := ← place block.start }) = .ok moved) :
    moved.map Block.id = blocks.map Block.id := by
  induction blocks generalizing moved with
  | nil =>
      have none : [] = moved := Except.ok.inj succeeds
      rw [← none]
  | cons block rest ih =>
      rw [List.mapM_cons] at succeeds
      obtain ⟨first, here, succeeds⟩ := bind_eq_ok.mp succeeds
      obtain ⟨others, later, last⟩ := bind_eq_ok.mp succeeds
      obtain ⟨start, _, same⟩ := bind_eq_ok.mp here
      rw [← Except.ok.inj last, ← Except.ok.inj same, List.map_cons, List.map_cons, ih later]

inductive Built : Registry → Prop
  | empty (stream : StreamId) : Built (empty stream)
  | synced {registry next : Registry} {spans : List Span} {count : Nat} (built : Built registry)
      (succeeds : registry.sync spans = .ok (count, next)) : Built next
  | shifted {registry next : Registry} {line : Nat} {offset : Int} (built : Built registry)
      (succeeds : registry.shiftFrom line offset = .ok next) : Built next
  | remapped {registry next : Registry} {shift : RowShift} (built : Built registry)
      (succeeds : registry.remap shift = .ok next) : Built next
  | removed {registry : Registry} (built : Built registry) (id : BlockId) :
      Built (registry.remove id).2
  | cleared {registry : Registry} (built : Built registry) : Built registry.clear

theorem Named.sync {count : Nat} (named : registry.Named)
    (succeeds : registry.sync spans = .ok (count, next)) : next.Named := by
  obtain ⟨parts, rfl, clear⟩ := sync_eq_ok succeeds
  apply named.withParts
  have starts := List.pairwise_map.mp (starts_of_check clear)
  rw [← spans_withParts registry parts]
  exact List.pairwise_map.mpr starts

/-- Ids stay distinct whatever is done to a registry. -/
theorem Built.named (built : registry.Built) : registry.Named := by
  induction built with
  | empty stream => exact ⟨List.nodup_nil, fun _ member => absurd member List.not_mem_nil⟩
  | synced _ succeeds named => exact named.sync succeeds
  | @shifted registry next line offset _ succeeds named =>
      obtain ⟨blocks, moved, same⟩ := bind_eq_ok.mp succeeds
      have whole : { registry with blocks } = next := Except.ok.inj same
      subst whole
      refine named.sublist rfl rfl ?_
      rw [ids_moved moved]
  | @remapped registry next shift _ succeeds named =>
      obtain ⟨kept, stays, succeeds⟩ := bind_eq_ok.mp succeeds
      obtain ⟨blocks, moved, same⟩ := bind_eq_ok.mp succeeds
      have whole : { registry with blocks } = next := Except.ok.inj same
      subst whole
      refine named.sublist rfl rfl ?_
      rw [ids_moved moved]
      exact (survivors_sublist stays).map Block.id
  | @removed registry _ id named =>
      exact named.sublist rfl rfl (List.eraseP_sublist.map Block.id)
  | cleared _ named => exact named.sublist rfl rfl (List.nil_sublist _)

/-! ## A second time -/

section Again

variable {parts : Span → List Span}

theorem starts_of_tiles (tiles : next.blocks.map Block.span = spans.flatMap parts) :
    next.blocks.map Block.start = (spans.flatMap parts).map Span.start := by
  rw [← tiles, List.map_map]
  rfl

/-- What starts inside a span when it has been cut is what started inside it before. -/
theorem startsInside_of_tiles (ascending : registry.Ascending) (nextAscending : next.Ascending)
    (apart : spans.Pairwise fun first second => first.stop ≤ second.start)
    (filled : ∀ span ∈ spans, span.start < span.stop)
    (cuts : ∀ span ∈ spans, span.CutAt (registry.startsInside span) (parts span))
    (tiles : next.blocks.map Block.span = spans.flatMap parts) (member : span ∈ spans) :
    next.startsInside span = registry.startsInside span := by
  have inside := (flatMap_parts_apart ascending apart filled cuts).1
  have starts := (cuts span member).starts
  refine List.Pairwise.eq_of_mem_iff (nextAscending.filter _) (ascending.filter _) ?_
  intro row
  rw [startsInside, starts_of_tiles tiles]
  constructor
  · intro present
    rcases List.mem_filter.mp present with ⟨begun, within⟩
    have within := of_decide_eq_true within
    obtain ⟨part, inParts, rfl⟩ := List.mem_map.mp begun
    obtain ⟨other, inSpans, inPart⟩ := List.mem_flatMap.mp inParts
    have bounds := inside other inSpans part inPart
    have both : spans.Pairwise fun first second =>
        first.stop ≤ second.start ∨ second.stop ≤ first.start := apart.imp Or.inl
    have symmetric : Std.Symm fun first second : Span =>
        first.stop ≤ second.start ∨ second.stop ≤ first.start := ⟨fun _ _ => Or.symm⟩
    by_cases same : other = span
    · subst same
      have begins : part.start ∈ (parts other).map Span.start := List.mem_map_of_mem inPart
      rw [starts] at begins
      exact (List.mem_cons.mp begins).resolve_left (Nat.ne_of_gt within.1)
    · have elsewhere := both.forall inSpans member same
      omega
  · intro present
    have within := (List.mem_filter.mp present).2
    have begins : row ∈ (parts span).map Span.start := by
      rw [starts]
      exact List.mem_cons_of_mem _ present
    obtain ⟨part, inPart, rfl⟩ := List.mem_map.mp begins
    exact List.mem_filter.mpr
      ⟨List.mem_map_of_mem (List.mem_flatMap.mpr ⟨span, member, inPart⟩), within⟩

theorem sync_again (nextAscending : next.Ascending) (fits : ∀ span ∈ spans, span.stop < rowLimit)
    (same : ∀ span ∈ spans, next.startsInside span = registry.startsInside span)
    (ascending : registry.Ascending)
    (cutUp : ∀ span ∈ spans, registry.split span = .ok (parts span))
    (tiles : next.blocks.map Block.span = spans.flatMap parts) (clear : next.check = .ok ()) :
    next.sync spans = .ok (0, next) := by
  have cutAgain : ∀ span ∈ spans, next.split span = .ok (parts span) := by
    intro span member
    rw [← cutUp span member, split_eq (fits span member), split_eq (fits span member),
      cutsOf_eq_startsInside nextAscending, cutsOf_eq_startsInside ascending, same span member]
  have kept : next.adopt next.minted (spans.flatMap parts) = (next.minted, next.blocks) := by
    rw [← tiles]
    exact adopt_known fun block member => idAt?_of_mem nextAscending member
  rw [sync, mapM_ok cutAgain, ok_bind, ← List.flatMap_def, kept]
  simp only [clear, ok_bind, Nat.sub_self]
  rfl

end Again

/-! ## The result -/

/-- What bringing a registry up to date with spans has to leave, with `count` new blocks. Ids are
told apart if they were before. -/
structure Synced (registry : Registry) (spans : List Span) (count : Nat) (next : Registry) :
    Prop where
  /-- The blocks are the parts of the spans, each cut where a known block starts inside it. -/
  tiles : ∃ parts : Span → List Span,
    (∀ span ∈ spans, span.CutAt (registry.startsInside span) (parts span)) ∧
    next.blocks.map Block.span = spans.flatMap parts
  inherited : ∀ block ∈ next.blocks, ∀ known ∈ registry.blocks,
    known.start = block.start → block.id = known.id
  counted : count =
    next.blocks.countP fun block => decide (block.start ∉ registry.blocks.map Block.start)
  fresh : registry.Named → ∀ block ∈ next.blocks,
    block.start ∉ registry.blocks.map Block.start → block.id ∉ registry.blocks.map Block.id
  gone : registry.Named → ∀ known ∈ registry.blocks,
    known.start ∉ next.blocks.map Block.start → known.id ∉ next.blocks.map Block.id
  named : registry.Named → next.Named
  again : next.sync spans = .ok (0, next)

theorem check_withParts {parts : List Span}
    (apart : parts.Pairwise fun first second => first.stop ≤ second.start)
    (within : ∀ part ∈ parts, part.start < part.stop ∧ part.stop < rowLimit) :
    (registry.withParts parts).check = .ok () := by
  have spans := spans_withParts registry parts
  have blocks : ∀ block ∈ (registry.withParts parts).blocks,
      block.span.start < block.span.stop ∧ block.span.stop < rowLimit := by
    intro block member
    apply within
    rw [← spans]
    exact List.mem_map_of_mem member
  rw [← spans, List.pairwise_map] at apart
  refine check_eq ?_ apart fun block member => (blocks block member).2
  intro block member
  have rows := (blocks block member).1
  simp only [Block.span, Span.stop] at rows
  omega

/-- A registry whose blocks start in ascending order can be brought up to date with any spans in
order. Whatever operations have built it, its ids are distinct. -/
theorem sync_cuts_spans (ascending : registry.Ascending)
    (apart : spans.Pairwise fun first second => first.stop ≤ second.start)
    (filled : ∀ span ∈ spans, 0 < span.red + span.green)
    (fits : ∀ span ∈ spans, span.stop < rowLimit) :
    (registry.Built → registry.Named) ∧
    ∃ count next, registry.sync spans = .ok (count, next) ∧
      registry.Synced spans count next := by
  have whole : ∀ span ∈ spans, span.start < span.stop := by
    intro span member
    have rows := filled span member
    simp only [Span.stop]
    omega
  choose! parts cutUp cuts using
    fun span member => split_ok ascending (whole span member) (fits span member)
  rcases flatMap_parts_apart ascending apart whole cuts with ⟨inside, partsApart⟩
  have within : ∀ part ∈ spans.flatMap parts, part.start < part.stop ∧ part.stop < rowLimit := by
    intro part member
    obtain ⟨span, inSpans, inPart⟩ := List.mem_flatMap.mp member
    have bounds := inside span inSpans part inPart
    have small := fits span inSpans
    omega
  have tiles := spans_withParts registry (spans.flatMap parts)
  have clear : (registry.withParts (spans.flatMap parts)).check = .ok () :=
    check_withParts partsApart within
  have nextAscending := starts_of_check clear
  have synced : registry.sync spans =
      .ok ((registry.withParts (spans.flatMap parts)).minted - registry.minted,
        registry.withParts (spans.flatMap parts)) := by
    unfold withParts at clear ⊢
    rw [sync, mapM_ok cutUp, ok_bind, ← List.flatMap_def]
    simp only [clear, ok_bind]
    rfl
  have same : ∀ span ∈ spans, startsInside (registry.withParts (spans.flatMap parts)) span =
      registry.startsInside span := fun span member =>
    startsInside_of_tiles ascending nextAscending apart whole cuts tiles member
  refine ⟨Built.named, _, _, synced, ?_⟩
  exact {
    tiles := ⟨parts, cuts, tiles⟩
    inherited := fun block member known present => id_of_start ascending member present
    counted := count_withParts ascending _
    fresh := fun named block member => id_of_new_start ascending named member
    gone := fun named known present => id_of_old_start named present
    named := fun named => named.sync synced
    again := sync_again nextAscending fits same ascending cutUp tiles clear }

/-- Known starts outside all spans, inside red and green rows and where the two meet. -/
def scattered : Registry :=
  ⟨⟨1⟩, 6, [⟨⟨⟨1⟩, 5⟩, 0, 4, 4⟩, ⟨⟨⟨1⟩, 0⟩, 2, 0, 1⟩, ⟨⟨⟨1⟩, 1⟩, 3, 9, 0⟩, ⟨⟨⟨1⟩, 4⟩, 5, 0, 0⟩,
    ⟨⟨⟨1⟩, 2⟩, 8, 1, 1⟩, ⟨⟨⟨1⟩, 3⟩, 20, 0, 2⟩]⟩

theorem scattered_cuts_spans : scattered.Ascending ∧ scattered.Named ∧
    scattered.Synced [⟨2, 3, 4⟩, ⟨12, 1, 1⟩] 1
      ⟨⟨1⟩, 7, [⟨⟨⟨1⟩, 0⟩, 2, 1, 0⟩, ⟨⟨⟨1⟩, 1⟩, 3, 2, 0⟩, ⟨⟨⟨1⟩, 4⟩, 5, 0, 3⟩, ⟨⟨⟨1⟩, 2⟩, 8, 0, 1⟩,
        ⟨⟨⟨1⟩, 6⟩, 12, 1, 1⟩]⟩ := by
  have ascending : scattered.Ascending := by
    unfold Ascending
    decide
  have named : scattered.Named := ⟨by decide, by decide⟩
  have computed : scattered.sync [⟨2, 3, 4⟩, ⟨12, 1, 1⟩] = .ok (1,
      ⟨⟨1⟩, 7, [⟨⟨⟨1⟩, 0⟩, 2, 1, 0⟩, ⟨⟨⟨1⟩, 1⟩, 3, 2, 0⟩, ⟨⟨⟨1⟩, 4⟩, 5, 0, 3⟩, ⟨⟨⟨1⟩, 2⟩, 8, 0, 1⟩,
        ⟨⟨⟨1⟩, 6⟩, 12, 1, 1⟩]⟩) := by cbv
  obtain ⟨_, count, next, succeeds, synced⟩ :=
    @sync_cuts_spans scattered [⟨2, 3, 4⟩, ⟨12, 1, 1⟩] ascending (by decide) (by decide) (by decide)
  obtain ⟨rfl, rfl⟩ := Prod.mk.inj (Except.ok.inj (computed.symm.trans succeeds))
  exact ⟨ascending, named, synced⟩

end Registry

end Redline
