import ZeroTier.Controller.JSONDB

namespace ZeroTier

-- The IPC reader of `JSONDB::threadMain`: every byte goes through one loop body, and only
-- `rawInputBuf` survives from one `read()` to the next.

-- '\n', '\r' or NUL.
def isDelimiter (b : UInt8) : Bool := b == 10 || b == 13 || b == 0

-- The loop body on one byte, with `handle` for what is done with a message: `rawInputBuf` and the
-- handler's state before and after.
def readByte {σ : Type} (handle : σ → List UInt8 → σ) (st : List UInt8 × σ) (b : UInt8) :
    List UInt8 × σ :=
  if !isDelimiter b then (st.1 ++ [b], st.2)
  else if st.1.length > 0 then ([], handle st.2 st.1)
  else st

-- The loop over one `read()` result.
def readChunk {σ : Type} (handle : σ → List UInt8 → σ) (st : List UInt8 × σ)
    (chunk : List UInt8) : List UInt8 × σ :=
  chunk.foldl (readByte handle) st

-- One message in the store: `jsonParse`, then `_add` on each element of an array or on an object;
-- malformed JSON is ignored. The flag is `_dataReady`, set by the first message that parses.
-- `toText` is the `std::string` the bytes make.
def handleMessage {L : JsonLib} (toText : List UInt8 → L.Text) (st : JSONDB L × Bool)
    (msg : List UInt8) : JSONDB L × Bool :=
  match L.jsonParse (toText msg) with
  | .ok obj =>
      if L.isArray obj then ((L.items obj).foldl (fun db j => (db.add j).1) st.1, true)
      else if L.isObject obj then ((st.1.add obj).1, true)
      else (st.1, true)
  | .error _ => st

-- Framing as the spec states it: the messages are the non-empty runs free of delimiters that a
-- delimiter follows, and what follows the last delimiter is kept.

def frames (s : List UInt8) : List (List UInt8) :=
  ((s.splitOnP isDelimiter).dropLast).filter fun m => !m.isEmpty

def unterminated (s : List UInt8) : List UInt8 := (s.splitOnP isDelimiter).getLastD []

-- No piece of the split holds a delimiter.
theorem isDelimiter_of_mem_splitOnP :
    ∀ {s m : List UInt8}, m ∈ s.splitOnP isDelimiter → ∀ b ∈ m, isDelimiter b = false
  | [], m, hm => by
    rw [List.splitOnP_nil, List.mem_singleton] at hm
    subst hm
    exact fun _ hb => absurd hb (List.not_mem_nil _)
  | x :: xs, m, hm => by
    rw [List.splitOnP_cons] at hm
    split_ifs at hm with hx
    · rcases List.mem_cons.1 hm with rfl | hm
      · exact fun _ hb => absurd hb (List.not_mem_nil _)
      · exact isDelimiter_of_mem_splitOnP hm
    · -- `x` opens the first piece
      obtain ⟨r, rs, hr⟩ := List.exists_cons_of_ne_nil (List.splitOnP_ne_nil isDelimiter xs)
      rw [hr, List.modifyHead_cons] at hm
      rcases List.mem_cons.1 hm with rfl | hm
      · intro b hb
        rcases List.mem_cons.1 hb with rfl | hb
        · simpa using hx
        · exact isDelimiter_of_mem_splitOnP (hr ▸ List.mem_cons_self r rs) b hb
      · exact isDelimiter_of_mem_splitOnP (hr ▸ List.mem_cons_of_mem r hm)

-- Every message is a non-empty run free of delimiters.
theorem mem_frames {s m : List UInt8} (h : m ∈ frames s) :
    m ≠ [] ∧ ∀ b ∈ m, isDelimiter b = false := by
  obtain ⟨hm, hne⟩ := List.mem_filter.1 h
  exact ⟨by simpa using hne, isDelimiter_of_mem_splitOnP (List.dropLast_subset _ hm)⟩

theorem frames_of_no_delimiter {s : List UInt8} (h : ∀ b ∈ s, isDelimiter b = false) :
    frames s = [] ∧ unterminated s = s := by
  rw [frames, unterminated, List.splitOnP_eq_single isDelimiter s fun b hb => by simp [h b hb]]
  exact ⟨rfl, rfl⟩

-- A delimiter closes the run before it, which is a message unless it is empty.
theorem frames_of_delimiter {buf : List UInt8} (h : ∀ b ∈ buf, isDelimiter b = false) {d : UInt8}
    (hd : isDelimiter d = true) (s : List UInt8) :
    frames (buf ++ d :: s) = (if buf.isEmpty then [] else [buf]) ++ frames s ∧
      unterminated (buf ++ d :: s) = unterminated s := by
  rw [frames, unterminated, List.splitOnP_first isDelimiter buf (fun b hb => by simp [h b hb]) d hd s]
  obtain ⟨seg, segs, hsegs⟩ := List.exists_cons_of_ne_nil (List.splitOnP_ne_nil isDelimiter s)
  rw [hsegs, List.dropLast_cons₂, List.filter_cons, List.getLastD_cons, frames, unterminated, hsegs]
  refine ⟨?_, rfl⟩
  cases buf.isEmpty <;> rfl

-- The reader over a stream, from a buffer that holds no delimiter: every message of the buffer
-- followed by the stream goes to `handle` in order, and the unterminated tail stays behind.
theorem foldl_readByte {σ : Type} (handle : σ → List UInt8 → σ) :
    ∀ (s buf : List UInt8) (acc : σ), (∀ b ∈ buf, isDelimiter b = false) →
      s.foldl (readByte handle) (buf, acc) =
        (unterminated (buf ++ s), (frames (buf ++ s)).foldl handle acc)
  | [], buf, acc, h => by
    obtain ⟨hf, hu⟩ := frames_of_no_delimiter h
    rw [List.foldl_nil, List.append_nil, hf, hu]
    rfl
  | b :: s, buf, acc, h => by
    rw [List.foldl_cons]
    cases hb : isDelimiter b
    · -- a byte of the message: the buffer grows
      have h' : ∀ c ∈ buf ++ [b], isDelimiter c = false := by
        simpa [or_imp, forall_and] using ⟨h, hb⟩
      rw [readByte, hb]
      simp only [Bool.not_false, if_true]
      rw [foldl_readByte handle s (buf ++ [b]) acc h', List.append_assoc, List.singleton_append]
    · -- a delimiter: the buffer, when non-empty, is a message
      obtain ⟨hf, hu⟩ := frames_of_delimiter h hb s
      rw [hf, hu, readByte, hb]
      cases buf with
      | nil => exact foldl_readByte handle s [] acc (fun _ hb => absurd hb (List.not_mem_nil _))
      | cons c cs =>
        simp only [Bool.not_true, Bool.false_eq_true, if_false, List.length_cons,
          Nat.zero_lt_succ, if_true, List.isEmpty_cons, List.singleton_append, List.foldl_cons]
        exact foldl_readByte handle s [] _ (fun _ hb => absurd hb (List.not_mem_nil _))

-- Any split of the stream into `read()` results is read as the whole stream at once.
theorem foldl_readChunk {σ : Type} (handle : σ → List UInt8 → σ) (acc : σ)
    (chunks : List (List UInt8)) :
    chunks.foldl (readChunk handle) ([], acc) =
      (unterminated chunks.flatten, (frames chunks.flatten).foldl handle acc) := by
  have h := foldl_readByte handle chunks.flatten [] acc (fun _ hb => absurd hb (List.not_mem_nil _))
  rw [List.nil_append, List.foldl_flatten] at h
  exact h

-- Collecting the messages in a list gives them back in order.
theorem foldl_append_singleton {α : Type} (l acc : List α) :
    l.foldl (fun msgs m => msgs ++ [m]) acc = acc ++ l := by
  induction l generalizing acc with
  | nil => exact (List.append_nil acc).symm
  | cons m l ih => rw [List.foldl_cons, ih, List.append_assoc, List.singleton_append]

theorem ipc_reader_frames {L : JsonLib} (toText : List UInt8 → L.Text) (db : JSONDB L)
    (dataReady : Bool) (chunks : List (List UInt8)) :
    chunks.foldl (readChunk fun msgs m => msgs ++ [m]) ([], []) =
        (unterminated chunks.flatten, frames chunks.flatten) ∧
      chunks.foldl (readChunk (handleMessage toText)) ([], (db, dataReady)) =
        (unterminated chunks.flatten,
          (frames chunks.flatten).foldl (handleMessage toText) (db, dataReady)) := by
  refine ⟨?_, foldl_readChunk _ _ chunks⟩
  rw [foldl_readChunk, foldl_append_singleton, List.nil_append]

-- Repeated delimiters: one that finds the buffer empty is skipped, so a peer ending its lines with
-- "\r\n", or sending blank lines, is read as one ending them with "\n".

-- A delimiter right after a delimiter closes an empty run, which is no message: from a buffer
-- free of delimiters, the frames and the tail are those of the stream without it.
theorem frames_delimiter_delimiter {d d' : UInt8} (hd : isDelimiter d = true)
    (hd' : isDelimiter d' = true) (post : List UInt8) :
    ∀ (pre buf : List UInt8), (∀ b ∈ buf, isDelimiter b = false) →
      frames (buf ++ pre ++ d :: d' :: post) = frames (buf ++ pre ++ d :: post) ∧
        unterminated (buf ++ pre ++ d :: d' :: post) = unterminated (buf ++ pre ++ d :: post)
  | [], buf, h => by
    have hnil : ∀ b ∈ ([] : List UInt8), isDelimiter b = false := fun _ hb => absurd hb (List.not_mem_nil _)
    obtain ⟨hf, hu⟩ := frames_of_delimiter h hd (d' :: post)
    obtain ⟨hf', hu'⟩ := frames_of_delimiter hnil hd' post
    obtain ⟨hf'', hu''⟩ := frames_of_delimiter h hd post
    rw [List.nil_append] at hf' hu'
    rw [List.append_nil, hf, hu, hf', hu', hf'', hu'']
    exact ⟨rfl, rfl⟩
  | x :: pre, buf, h => by
    cases hx : isDelimiter x
    · -- `x` extends the run
      have h' : ∀ b ∈ buf ++ [x], isDelimiter b = false := by
        simpa [or_imp, forall_and] using ⟨h, hx⟩
      have := frames_delimiter_delimiter hd hd' post pre (buf ++ [x]) h'
      simpa only [List.append_assoc, List.singleton_append] using this
    · -- `x` closes the run
      have hnil : ∀ b ∈ ([] : List UInt8), isDelimiter b = false :=
        fun _ hb => absurd hb (List.not_mem_nil _)
      obtain ⟨hf, hu⟩ := frames_of_delimiter h hx (pre ++ d :: d' :: post)
      obtain ⟨hf', hu'⟩ := frames_of_delimiter h hx (pre ++ d :: post)
      obtain ⟨ih₁, ih₂⟩ := frames_delimiter_delimiter hd hd' post pre [] hnil
      rw [List.nil_append] at ih₁ ih₂
      simp only [List.append_assoc, List.cons_append] at hf hu hf' hu' ⊢
      rw [hf, hu, hf', hu', ih₁, ih₂]
      exact ⟨rfl, rfl⟩

-- Inserting a delimiter right after a delimiter, anywhere in the stream, changes neither what
-- the store ends up holding, nor `_dataReady`, nor what is left in `rawInputBuf`, however either
-- stream is cut into `read()` results.
theorem ipc_reader_repeated_delimiter {L : JsonLib} (toText : List UInt8 → L.Text)
    (db : JSONDB L) (dataReady : Bool) {pre post : List UInt8} {d d' : UInt8}
    (hd : isDelimiter d = true) (hd' : isDelimiter d' = true) {chunks chunks' : List (List UInt8)}
    (hc : chunks.flatten = pre ++ d :: d' :: post) (hc' : chunks'.flatten = pre ++ d :: post) :
    chunks.foldl (readChunk (handleMessage toText)) ([], (db, dataReady)) =
      chunks'.foldl (readChunk (handleMessage toText)) ([], (db, dataReady)) := by
  obtain ⟨hf, hu⟩ := frames_delimiter_delimiter hd hd' post pre [] fun _ hb => absurd hb (List.not_mem_nil _)
  rw [foldl_readChunk, foldl_readChunk, hc, hc', ← List.nil_append pre, hf, hu]

-- A message ended by "\r\n" in one read, and the same message ended by "\r" in two.
theorem ipc_reader_repeated_delimiter_crlf :
    isDelimiter 13 = true ∧ isDelimiter 10 = true ∧
      [[123, 125, 13, 10]].flatten = [123, 125] ++ 13 :: 10 :: [] ∧
      [[123], [125, 13]].flatten = [123, 125] ++ 13 :: [] ∧
      [[123, 125, 13, 10]].foldl (readChunk (@handleMessage JsonLib.fieldJson fun _ => .null))
          ([], (JSONDB.fresh .ipc [], false)) =
        [[123], [125, 13]].foldl (readChunk (@handleMessage JsonLib.fieldJson fun _ => .null))
          ([], (JSONDB.fresh .ipc [], false)) :=
  ⟨rfl, rfl, rfl, rfl, @ipc_reader_repeated_delimiter JsonLib.fieldJson (fun _ => .null)
    (JSONDB.fresh .ipc []) false [123, 125] [] 13 10 rfl rfl [[123, 125, 13, 10]] [[123], [125, 13]]
    rfl rfl⟩

end ZeroTier
