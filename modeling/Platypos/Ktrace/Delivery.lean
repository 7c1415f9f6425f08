import Platypos.Ktrace.Streaming

namespace Platypos.Ktrace

/-- The marker has not been seen, and the part of it that may have been read is held back. -/
structure Searching (flushed held : List UInt8) : Prop where
  absent : ∀ i, ¬ START_OF_OUTPUT <+: (flushed ++ held).drop i
  enough : flushed = [] ∨ held.length = START_OF_OUTPUT.length

namespace Searching

variable {flushed held : List UInt8}

theorem start : Searching [] [] where
  absent i := by simp [START_OF_OUTPUT]
  enough := .inl rfl

theorem find_append (searching : Searching flushed held) (more : List UInt8) :
    Search.find START_OF_OUTPUT (flushed ++ (held ++ more)) =
      (Search.find START_OF_OUTPUT (held ++ more)).map (flushed.length + ·) := by
  apply Search.find_append
  intro i inside occurs
  rcases searching.enough with rfl | enough
  · exact Nat.not_lt_zero i inside
  · rw [← List.append_assoc] at occurs
    apply searching.absent i
    apply Search.prefix_drop_of_append occurs
    rw [List.length_append]
    omega

end Searching

namespace Decoder

variable {E : Type} {flushed held : List UInt8} {chunk : Chunk}

def save (written bytes : List UInt8) : Except E Unit × List UInt8 := (.ok (), written ++ bytes)

theorem readInitial_found {boot left : List UInt8} (searching : Searching flushed held) (some : chunk.bytes ≠ [])
    (first : ∀ i < boot.length, ¬ START_OF_OUTPUT <+: (boot ++ (START_OF_OUTPUT ++ left)).drop i)
    (split : flushed ++ (held ++ chunk.bytes) = boot ++ (START_OF_OUTPUT ++ left)) (header : Bool)
    (input : List (Except E Chunk)) :
    readInitial save ⟨held, header⟩ flushed (.ok chunk :: input) = (.ok input, ⟨left, true⟩, boot) := by
  have found := searching.find_append chunk.bytes
  rw [split, Search.find_eq_some first (List.prefix_append _ _)] at found
  obtain ⟨pos, here, total⟩ := Option.map_eq_some_iff.mp found.symm
  have before : flushed ++ (held ++ chunk.bytes).take pos = boot := by
    have front := congrArg (List.take boot.length) split
    rwa [← total, List.take_length_add_append, total, List.take_left] at front
  have after : (held ++ chunk.bytes).drop (pos + START_OF_OUTPUT.length) = left := by
    have back := congrArg (List.drop (boot.length + START_OF_OUTPUT.length)) split
    rwa [← total, Nat.add_assoc, List.drop_length_add_append, ← Nat.add_assoc, total,
      List.drop_length_add_append, List.drop_left] at back
  rw [readInitial, if_neg some]
  simp only [here, save, before, after]

theorem readInitial_absent (searching : Searching flushed held) (some : chunk.bytes ≠ [])
    (absent : ∀ i, ¬ START_OF_OUTPUT <+: (flushed ++ (held ++ chunk.bytes)).drop i) (header : Bool) :
    ∃ flushed' held', flushed' ++ held' = flushed ++ (held ++ chunk.bytes) ∧ Searching flushed' held' ∧
      held'.length ≤ START_OF_OUTPUT.length ∧
      ∀ input, readInitial (E := E) save ⟨held, header⟩ flushed (.ok chunk :: input) =
        readInitial save ⟨held', header⟩ flushed' input := by
  have none : Search.find START_OF_OUTPUT (held ++ chunk.bytes) = none := by
    have found := searching.find_append chunk.bytes
    rwa [Search.find_eq_none.mpr absent, eq_comm, Option.map_eq_none_iff] at found
  have grown : 0 < chunk.bytes.length := List.length_pos_of_ne_nil some
  by_cases long : START_OF_OUTPUT.length < (held ++ chunk.bytes).length
  · have same : flushed ++ (held ++ chunk.bytes).take ((held ++ chunk.bytes).length - START_OF_OUTPUT.length) ++
        (held ++ chunk.bytes).drop ((held ++ chunk.bytes).length - START_OF_OUTPUT.length) =
        flushed ++ (held ++ chunk.bytes) := by
      rw [List.append_assoc, List.take_append_drop]
    have kept : ((held ++ chunk.bytes).drop ((held ++ chunk.bytes).length - START_OF_OUTPUT.length)).length =
        START_OF_OUTPUT.length := by
      rw [List.length_drop]
      omega
    refine ⟨_, _, same, ⟨same ▸ absent, .inr kept⟩, Nat.le_of_eq kept, fun input => ?_⟩
    rw [readInitial, if_neg some]
    simp only [none, if_pos long, save]
  · refine ⟨flushed, held ++ chunk.bytes, rfl, ⟨absent, ?_⟩, Nat.le_of_not_lt long, fun input => ?_⟩
    · left
      rcases searching.enough with empty | enough
      · exact empty
      · rw [List.length_append] at long
        omega
    · rw [readInitial, if_neg some]
      simp only [none, if_neg long]

theorem readInitial_run {boot tail : List UInt8} {chunks : List Chunk} (searching : Searching flushed held)
    (some : ∀ chunk ∈ chunks, chunk.bytes ≠ [])
    (first : ∀ i < boot.length, ¬ START_OF_OUTPUT <+: (boot ++ (START_OF_OUTPUT ++ tail)).drop i)
    (delivered : flushed ++ (held ++ chunks.flatMap Chunk.bytes) = boot ++ (START_OF_OUTPUT ++ tail)) (header : Bool) :
    ∃ read rest left, chunks = read ++ rest ∧ read ≠ [] ∧ tail = left ++ rest.flatMap Chunk.bytes ∧
      (flushed ++ (held ++ read.dropLast.flatMap Chunk.bytes)).length < boot.length + START_OF_OUTPUT.length ∧
      ∀ input, readInitial (E := E) save ⟨held, header⟩ flushed (read.map .ok ++ input) =
        (.ok input, ⟨left, true⟩, boot) := by
  induction chunks generalizing flushed held with
  | nil =>
    rw [List.flatMap_nil, List.append_nil] at delivered
    refine absurd ?_ (searching.absent boot.length)
    rw [delivered, List.drop_left]
    exact List.prefix_append _ _
  | cons chunk chunks ih =>
    rw [List.flatMap_cons, ← List.append_assoc held, ← List.append_assoc flushed] at delivered
    have nonempty : chunk.bytes ≠ [] := some chunk (by simp)
    by_cases complete : boot.length + START_OF_OUTPUT.length ≤ (flushed ++ (held ++ chunk.bytes)).length
    · have front : boot ++ START_OF_OUTPUT <+: flushed ++ (held ++ chunk.bytes) := by
        have marked : boot ++ START_OF_OUTPUT <+: boot ++ (START_OF_OUTPUT ++ tail) := ⟨tail, List.append_assoc _ _ _⟩
        apply List.prefix_of_prefix_length_le marked ⟨_, delivered⟩
        rwa [List.length_append]
      obtain ⟨left, split⟩ := front
      -- The marker was not there before this read.
      have unfinished : (flushed ++ held).length < boot.length + START_OF_OUTPUT.length := by
        by_contra finished
        have occurs : START_OF_OUTPUT <+: (flushed ++ held ++ chunk.bytes).drop boot.length := by
          rw [List.append_assoc, ← split, List.append_assoc, List.drop_left]
          exact List.prefix_append _ _
        exact searching.absent boot.length (Search.prefix_drop_of_append occurs (by omega))
      rw [← split, ← List.append_assoc boot, List.append_assoc _ left, List.append_cancel_left_eq] at delivered
      have first' : ∀ i < boot.length, ¬ START_OF_OUTPUT <+: (boot ++ (START_OF_OUTPUT ++ left)).drop i := by
        intro i inside occurs
        apply first i inside
        rw [← delivered, ← List.append_assoc START_OF_OUTPUT, ← List.append_assoc boot]
        exact Search.prefix_drop_append occurs _
      refine ⟨[chunk], chunks, left, rfl, by simp, delivered.symm, by simpa using unfinished, ?_⟩
      exact readInitial_found searching nonempty first' (by rw [← split, List.append_assoc]) header
    · have absent : ∀ i, ¬ START_OF_OUTPUT <+: (flushed ++ (held ++ chunk.bytes)).drop i := by
        intro i occurs
        have inside := occurs.length_le
        rw [List.length_drop] at inside
        have positive : 0 < START_OF_OUTPUT.length := by decide
        apply first i (by omega)
        rw [← delivered]
        exact Search.prefix_drop_append occurs _
      obtain ⟨flushed', held', same, searching', _, step⟩ := readInitial_absent (E := E) searching nonempty absent header
      rw [← same, List.append_assoc] at delivered
      obtain ⟨read, rest, left, rfl, more, tailed, bound, run⟩ :=
        ih searching' (fun c member => some c (by simp [member])) delivered
      refine ⟨chunk :: read, rest, left, rfl, by simp, tailed, ?_, ?_⟩
      · rw [List.dropLast_cons_of_ne_nil more, List.flatMap_cons, ← List.append_assoc held, ← List.append_assoc flushed,
          ← same, List.append_assoc]
        exact bound
      · intro input
        rw [List.map_cons, List.cons_append, step, run]

theorem drop_marker {boot left : List UInt8} {read rest : List Chunk}
    (delivered : (read ++ rest).flatMap Chunk.bytes = boot ++ (START_OF_OUTPUT ++ (left ++ rest.flatMap Chunk.bytes)))
    (more : List Chunk) :
    ((read ++ more).flatMap Chunk.bytes).drop (boot.length + START_OF_OUTPUT.length) =
      left ++ more.flatMap Chunk.bytes := by
  rw [List.flatMap_append, ← List.append_assoc START_OF_OUTPUT, ← List.append_assoc boot,
    List.append_cancel_right_eq, ← List.append_assoc] at delivered
  rw [List.flatMap_append, delivered, List.append_assoc]
  exact List.drop_left' (List.length_append)

/-- The output is what comes before the first marker, and the buffer is what has been read after it. -/
theorem readInitial_splits {stream : List UInt8} {p : Nat} {chunks : List Chunk}
    (some : ∀ chunk ∈ chunks, chunk.bytes ≠ []) (delivered : chunks.flatMap Chunk.bytes = stream)
    (occurs : START_OF_OUTPUT <+: stream.drop p) (first : ∀ i < p, ¬ START_OF_OUTPUT <+: stream.drop i) :
    ∃ read rest, chunks = read ++ rest ∧
      readInitial (E := E) save new [] (chunks.map .ok) =
        (.ok (rest.map .ok), ⟨(read.flatMap Chunk.bytes).drop (p + 4), true⟩, stream.take p) := by
  obtain ⟨tail, marked⟩ := occurs
  have inside : (stream.take p).length = p := by
    have long := congrArg List.length marked
    have marker : START_OF_OUTPUT.length = 4 := rfl
    rw [List.length_append, List.length_drop] at long
    rw [List.length_take]
    omega
  have split : stream = stream.take p ++ (START_OF_OUTPUT ++ tail) := by
    rw [marked, List.take_append_drop]
  clear marked
  generalize stream.take p = boot at inside split ⊢
  subst inside split
  obtain ⟨read, rest, left, rfl, _, rfl, _, run⟩ :=
    readInitial_run (E := E) Searching.start some first delivered false
  refine ⟨read, rest, rfl, ?_⟩
  have kept : (read.flatMap Chunk.bytes).drop (boot.length + 4) = left := by
    have dropped := drop_marker delivered []
    rw [List.append_nil, List.flatMap_nil, List.append_nil] at dropped
    exact dropped
  rw [List.map_append, kept]
  exact run (rest.map .ok)

def straddling : List Chunk := [⟨[1, 255, 0], by decide⟩, ⟨[255, 0, 4], by decide⟩, ⟨[7], by decide⟩]

theorem readInitial_splits_straddling :
    ∃ read rest, straddling = read ++ rest ∧
      readInitial (E := Unit) save new [] (straddling.map .ok) =
        (.ok (rest.map .ok), ⟨(read.flatMap Chunk.bytes).drop (1 + 4), true⟩, [1]) := by
  have delivered : straddling.flatMap Chunk.bytes = [1, 255, 0, 255, 0, 4, 7] := rfl
  exact readInitial_splits (by decide) delivered (by decide) (by decide)

theorem readInitial_unmarked {chunks : List Chunk} (searching : Searching flushed held)
    (short : held.length ≤ START_OF_OUTPUT.length) (some : ∀ chunk ∈ chunks, chunk.bytes ≠ [])
    (absent : ∀ i, ¬ START_OF_OUTPUT <+: (flushed ++ (held ++ chunks.flatMap Chunk.bytes)).drop i) (header : Bool) :
    ∃ written kept, written ++ kept = flushed ++ (held ++ chunks.flatMap Chunk.bytes) ∧ Searching written kept ∧
      kept.length ≤ START_OF_OUTPUT.length ∧
      readInitial (E := E) save ⟨held, header⟩ flushed (chunks.map .ok) =
        (.error (.bail "could not find ktrace marker"), ⟨kept, header⟩, written) := by
  induction chunks generalizing flushed held with
  | nil =>
    rw [List.flatMap_nil, List.append_nil]
    exact ⟨flushed, held, rfl, searching, short, rfl⟩
  | cons chunk chunks ih =>
    obtain ⟨nonempty, others⟩ := List.forall_mem_cons.mp some
    rw [List.flatMap_cons, ← List.append_assoc held, ← List.append_assoc flushed] at absent ⊢
    have absent' : ∀ i, ¬ START_OF_OUTPUT <+: (flushed ++ (held ++ chunk.bytes)).drop i :=
      fun i occurs => absent i (Search.prefix_drop_append occurs _)
    obtain ⟨flushed', held', same, searching', short', step⟩ :=
      readInitial_absent (E := E) searching nonempty absent' header
    rw [← same, List.append_assoc] at absent ⊢
    obtain ⟨written, kept, all, searching'', short'', run⟩ := ih searching' short' others absent
    refine ⟨written, kept, all, searching'', short'', ?_⟩
    rw [List.map_cons, step, run]

/-- Without a marker the last bytes stay in the buffer, so that all is written only if there was nothing to write. -/
theorem readInitial_writes_all_iff {stream : List UInt8} {chunks : List Chunk}
    (some : ∀ chunk ∈ chunks, chunk.bytes ≠ []) (delivered : chunks.flatMap Chunk.bytes = stream)
    (absent : ∀ i, ¬ START_OF_OUTPUT <+: stream.drop i) :
    ∃ decoder written, readInitial (E := E) save new [] (chunks.map .ok) =
        (.error (.bail "could not find ktrace marker"), decoder, written) ∧
      written = stream.take (stream.length - 4) ∧ (written = stream ↔ stream = []) := by
  subst delivered
  obtain ⟨written, kept, all, searching, short, run⟩ :=
    readInitial_unmarked (E := E) Searching.start (Nat.zero_le _) some absent false
  rw [List.nil_append, List.nil_append] at all
  have size : written.length = (chunks.flatMap Chunk.bytes).length - 4 := by
    have total := congrArg List.length all
    have marker : START_OF_OUTPUT.length = 4 := rfl
    rw [List.length_append] at total
    rcases searching.enough with rfl | enough
    · rw [List.length_nil] at total ⊢
      omega
    · omega
  have front : written = (chunks.flatMap Chunk.bytes).take ((chunks.flatMap Chunk.bytes).length - 4) := by
    rw [← size, ← all, List.take_left]
  refine ⟨_, written, run, front, ?_⟩
  constructor
  · intro same
    rw [same] at size
    apply List.eq_nil_of_length_eq_zero
    omega
  · intro empty
    rw [front, empty]
    rfl

theorem readInitial_writes_front :
    ∃ decoder, readInitial (E := Unit) save new []
        (([⟨[98, 111, 111], by decide⟩, ⟨[116, 58, 32], by decide⟩] : List Chunk).map .ok) =
      (.error (.bail "could not find ktrace marker"), decoder, [98, 111]) := by
  have absent : ∀ i, ¬ START_OF_OUTPUT <+: [(98 : UInt8), 111, 111, 116, 58, 32].drop i := Search.find_eq_none.mp rfl
  have delivered : ([⟨[98, 111, 111], by decide⟩, ⟨[116, 58, 32], by decide⟩] : List Chunk).flatMap Chunk.bytes =
      [98, 111, 111, 116, 58, 32] := rfl
  obtain ⟨decoder, written, run, rfl, _⟩ := readInitial_writes_all_iff (by decide) delivered absent
  exact ⟨decoder, run⟩

/-- A boot that panics with `oops`: one read, then the end of the file. Nothing of it is written. -/
theorem readInitial_loses_last_bytes :
    (∀ i, ¬ START_OF_OUTPUT <+: [(111 : UInt8), 111, 112, 115].drop i) ∧
      readInitial (E := Unit) save new [] [.ok ⟨[111, 111, 112, 115], by decide⟩] =
        (.error (.bail "could not find ktrace marker"), ⟨[111, 111, 112, 115], false⟩, []) := by
  refine ⟨?_, rfl⟩
  exact Search.find_eq_none.mp rfl

theorem decode_eq {boot left : List UInt8} {input rest : List (Except E Chunk)}
    (initial : readInitial save new [] input = (.ok rest, ⟨left, true⟩, boot)) :
    decode save collect new input [] [] =
      ((decodeLoop collect ⟨left, true⟩ [] rest).1, (decodeLoop collect ⟨left, true⟩ [] rest).2.1, boot,
        (decodeLoop collect ⟨left, true⟩ [] rest).2.2) := by
  rw [decode, initial]

/-- The messages are delivered exactly if there are none or the marker is complete before the last read. -/
theorem decode_delivers_iff {boot tail : List UInt8} {ms : List SenderMessage} {rs : List ReceiverMessage}
    {chunks : List Chunk} (sent : Transmits ms rs tail) (some : ∀ chunk ∈ chunks, chunk.bytes ≠ [])
    (delivered : chunks.flatMap Chunk.bytes = boot ++ (START_OF_OUTPUT ++ tail))
    (first : ∀ i < boot.length, ¬ START_OF_OUTPUT <+: (boot ++ (START_OF_OUTPUT ++ tail)).drop i) :
    (∃ decoder drained, decode (E := E) save collect new (chunks.map .ok) [] [] = (.ok (), decoder, drained, rs)) ↔
      ms = [] ∨ boot.length + START_OF_OUTPUT.length ≤ (chunks.dropLast.flatMap Chunk.bytes).length := by
  obtain ⟨read, rest, left, rfl, more, rfl, bound, run⟩ :=
    readInitial_run (E := E) Searching.start some first delivered false
  rw [List.map_append, decode_eq (run (rest.map .ok))]
  cases rest with
  | nil =>
    rw [List.append_nil, sent.nil_iff]
    rw [List.nil_append, List.nil_append] at bound
    constructor
    · rintro ⟨_, _, same⟩
      cases same
      exact .inl rfl
    · rintro (rfl | complete)
      · exact ⟨_, _, rfl⟩
      · omega
  | cons chunk rest =>
    rw [← List.append_nil (List.flatMap _ _)] at sent
    obtain ⟨calls, left', all, loop⟩ := decodeLoop_delivers (E := E) (fun c member => some c (by simp [member])) true sent
    rw [List.append_nil] at sent
    have finished := loop []
    rw [List.append_nil] at finished
    rw [finished, all.all sent]
    refine iff_of_true ⟨_, _, rfl⟩ (.inr ?_)
    rw [List.flatMap_append, ← List.append_assoc START_OF_OUTPUT, ← List.append_assoc boot,
      List.append_cancel_right_eq] at delivered
    rw [List.dropLast_append_of_ne_nil (List.cons_ne_nil _ _), List.flatMap_append, delivered]
    simp only [List.length_append]
    omega

theorem transmits_spanClosed : Transmits [.spanClosed 7] [.spanClosed 7] [4, 7] := by
  have encoded : (Message.spanClosed 7 : SenderMessage).encode = .ok (.ok [4, 7]) := rfl
  exact .cons rfl encoded .nil

theorem decode_delivers_spanClosed :
    ∃ decoder drained, decode (E := Unit) save collect new
      (([⟨[1, 255, 0], by decide⟩, ⟨[255, 0, 4], by decide⟩, ⟨[7], by decide⟩] : List Chunk).map .ok) [] [] =
        (.ok (), decoder, drained, [.spanClosed 7]) := by
  have first : ∀ i < [(1 : UInt8)].length, ¬ START_OF_OUTPUT <+: ([1] ++ (START_OF_OUTPUT ++ [4, 7])).drop i := by decide
  exact (decode_delivers_iff transmits_spanClosed (by decide) rfl first).mpr (.inr (by decide))

/-- Everything arrives with one read: the message stays in the buffer, and no error is reported. -/
theorem decode_loses_message :
    Transmits [.spanClosed 7] [.spanClosed 7] [4, 7] ∧
      decode (E := Unit) save collect new [.ok ⟨START_OF_OUTPUT ++ [4, 7], by decide⟩] [] [] =
        (.ok (), ⟨[4, 7], true⟩, [], []) ∧
      ∃ decoder, decode (E := Unit) save collect new [.ok ⟨START_OF_OUTPUT, by decide⟩, .ok ⟨[4, 7], by decide⟩] [] [] =
        (.ok (), decoder, [], [.spanClosed 7]) := by
  refine ⟨transmits_spanClosed, rfl, ?_⟩
  have second : ∀ chunk ∈ ([⟨[4, 7], by decide⟩] : List Chunk), chunk.bytes ≠ [] := by decide
  have sent : Transmits [.spanClosed 7] [.spanClosed 7]
      ([] ++ (([⟨[4, 7], by decide⟩] : List Chunk).flatMap Chunk.bytes ++ [])) := transmits_spanClosed
  obtain ⟨calls, left, all, run⟩ := decodeLoop_delivers (E := Unit) second true sent
  obtain rfl : calls = [.spanClosed 7] := all.all transmits_spanClosed
  have initial : readInitial (E := Unit) save new [] [.ok ⟨START_OF_OUTPUT, by decide⟩, .ok ⟨[4, 7], by decide⟩] =
      (.ok [.ok ⟨[4, 7], by decide⟩], ⟨[], true⟩, []) := rfl
  have finished := run []
  rw [List.append_nil, List.map_cons, List.map_nil] at finished
  rw [decode_eq initial, finished]
  exact ⟨⟨left, true⟩, rfl⟩

/-- After every read of the second loop, what is complete has been passed on and the rest is in the buffer,
    and `decode` goes on from there whatever it reads next. -/
theorem decode_keeps_remainder {boot tail : List UInt8} {ms : List SenderMessage} {rs : List ReceiverMessage}
    {before after : List Chunk} {chunk : Chunk} (sent : Transmits ms rs tail)
    (some : ∀ c ∈ before ++ chunk :: after, c.bytes ≠ [])
    (delivered : (before ++ chunk :: after).flatMap Chunk.bytes = boot ++ (START_OF_OUTPUT ++ tail))
    (first : ∀ i < boot.length, ¬ START_OF_OUTPUT <+: (boot ++ (START_OF_OUTPUT ++ tail)).drop i)
    (second : boot.length + START_OF_OUTPUT.length ≤ (before.flatMap Chunk.bytes).length) :
    ∃ calls buf,
      Delivered ms (((before ++ [chunk]).flatMap Chunk.bytes).drop (boot.length + START_OF_OUTPUT.length)) calls buf ∧
      ∀ input, decode (E := E) save collect new ((before ++ [chunk]).map .ok ++ input) [] [] =
        ((decodeLoop collect ⟨buf, true⟩ calls input).1, (decodeLoop collect ⟨buf, true⟩ calls input).2.1, boot,
          (decodeLoop collect ⟨buf, true⟩ calls input).2.2) := by
  obtain ⟨read, rest, left, split, more, rfl, bound, run⟩ :=
    readInitial_run (E := E) Searching.start some first delivered false
  rw [List.nil_append, List.nil_append] at bound
  obtain ⟨middle, rfl, rfl⟩ : ∃ middle, before = read ++ middle ∧ rest = middle ++ chunk :: after := by
    rcases List.append_eq_append_iff.mp split with ⟨extra, longer, others⟩ | shorter
    · cases extra with
      | nil => exact ⟨[], by rw [longer, List.append_nil, List.append_nil], others.symm⟩
      | cons c extra =>
        -- The marker was complete before the last read of the first loop.
        rw [longer, List.dropLast_append_of_ne_nil (List.cons_ne_nil _ _), List.flatMap_append,
          List.length_append] at bound
        omega
    · exact shorter
  rw [List.append_assoc] at delivered
  rw [List.append_assoc, drop_marker delivered]
  obtain ⟨c, chunks, later⟩ : ∃ c chunks, middle ++ [chunk] = c :: chunks := List.exists_cons_of_ne_nil (by simp)
  rw [← List.singleton_append, ← List.append_assoc, later, List.flatMap_append] at sent
  rw [← List.singleton_append, List.append_assoc, ← List.append_assoc middle, later] at some
  have nonempty : ∀ c' ∈ c :: chunks, c'.bytes ≠ [] := by
    intro c' member
    exact some c' (List.mem_append_right _ (List.mem_append_left _ member))
  obtain ⟨calls, buf, state, loop⟩ := decodeLoop_delivers (E := E) nonempty true sent
  refine ⟨calls, buf, later ▸ state, fun input => ?_⟩
  rw [List.map_append, List.append_assoc, decode_eq (run _), later, loop]

theorem decode_keeps_start_of_second :
    ∃ calls buf, Delivered [.spanClosed 7, .spanClosed 7] [4, 7, 4] calls buf ∧
      ∀ input, decode (E := Unit) save collect new
          (([⟨START_OF_OUTPUT, by decide⟩, ⟨[4, 7, 4], by decide⟩] : List Chunk).map .ok ++ input) [] [] =
        ((decodeLoop collect ⟨buf, true⟩ calls input).1, (decodeLoop collect ⟨buf, true⟩ calls input).2.1, [],
          (decodeLoop collect ⟨buf, true⟩ calls input).2.2) := by
  have sent : Transmits [.spanClosed 7, .spanClosed 7] [.spanClosed 7, .spanClosed 7] [4, 7, 4, 7] :=
    transmits_spanClosed.append transmits_spanClosed
  have delivered : ([⟨START_OF_OUTPUT, by decide⟩] ++ ⟨[4, 7, 4], by decide⟩ :: [⟨[7], by decide⟩] : List Chunk).flatMap
      Chunk.bytes = [] ++ (START_OF_OUTPUT ++ [4, 7, 4, 7]) := rfl
  exact decode_keeps_remainder sent (by decide) delivered (by decide) (by decide)

end Decoder

end Platypos.Ktrace
