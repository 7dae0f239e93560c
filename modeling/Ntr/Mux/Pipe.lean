/-
What the two workers have in common: the link between them, and the buffer of a
sub-stream, a bounded pipe between the read loop and the one who takes its data.

* `BufPipe.write`, `BufPipe.read`: what one turn at the lock of a pipe does;
* `write_conserves`, `read_conserves`: bytes neither get lost nor change their
  order while the pipe is open, and a read finds the end only behind all of
  them.
-/
import Ntr.Mux.Frame

namespace Ntr.Mux

open Go List

/-- `InternalDomain`: the target of the control sub-stream. -/
def internalDomain : Str := lit "reverse"

/-! ### Links -/

abbrev Frame := FrameMetadata × Str

/-- One direction of a link: the frames that were written, in the order of the
write lock, and whether the link has failed. The other side reads them in this
order (`readFrames_writes`). -/
structure Link where
  sent : List Frame := []
  down : Bool := false

/-- A call on the link. It fails when the link is down, or when the frame cannot
be written. -/
def Link.write (l : Link) (c : Call) : Option Link :=
  if l.down = true ∨ ¬ c.Valid then none else some { l with sent := l.sent ++ c.frames }

/-- A call whose failure the caller does not look at. -/
def Link.push (l : Link) (c : Call) : Link := (l.write c).getD l

lemma sent_write {l l' : Link} {c : Call} (h : l.write c = some l') :
    l'.sent = l.sent ++ c.frames := by
  rw [Link.write] at h
  split_ifs at h
  obtain rfl := Option.some.inj h
  rfl

lemma sent_push (l : Link) (c : Call) :
    (l.push c).sent = l.sent ∨ (l.push c).sent = l.sent ++ c.frames := by
  rw [Link.push]
  cases h : l.write c with
  | none => exact .inl rfl
  | some l' => exact .inr (sent_write h)

/-! ### The frames of a sub-stream -/

def IsKeep (id : UInt16) (f : Frame) : Prop := f.1.sessionID = id ∧ f.1.status = statusKeep

instance (id : UInt16) : DecidablePred (IsKeep id) := fun _ => inferInstanceAs (Decidable (_ ∧ _))

def IsEnd (id : UInt16) (f : Frame) : Prop := f.1.sessionID = id ∧ f.1.status = statusEnd

instance (id : UInt16) : DecidablePred (IsEnd id) := fun _ => inferInstanceAs (Decidable (_ ∧ _))

def payload (id : UInt16) (fs : List Frame) : Str := (fs.filter (IsKeep id)).flatMap Prod.snd

def upTo (id : UInt16) (fs : List Frame) : Str := payload id (fs.takeWhile fun f => ¬ IsEnd id f)

section
variable {id : UInt16} {f : Frame} {fs gs : List Frame}

@[simp]
lemma payload_nil (id : UInt16) : payload id [] = [] := rfl

lemma payload_append (id : UInt16) (fs gs : List Frame) :
    payload id (fs ++ gs) = payload id fs ++ payload id gs := by
  rw [payload, filter_append, flatMap_append, payload, payload]

lemma payload_mono (h : fs <+: gs) : payload id fs <+: payload id gs := by
  obtain ⟨hs, rfl⟩ := h
  rw [payload_append]
  exact prefix_append _ _

lemma payload_of_isKeep (h : IsKeep id f) : payload id [f] = f.2 := by
  simp [payload, h]

lemma payload_of_forall (h : ∀ f ∈ fs, ¬ IsKeep id f) : payload id fs = [] := by
  rw [payload, filter_eq_nil_iff.mpr (by simpa using h), flatMap_nil]

lemma payload_of_not_isKeep (h : ¬ IsKeep id f) : payload id [f] = [] :=
  payload_of_forall fun g hg => by rwa [mem_singleton.mp hg]

lemma upTo_of_forall (h : ∀ f ∈ fs, ¬ IsEnd id f) (hf : IsEnd id f) :
    upTo id (fs ++ [f]) = payload id fs := by
  have hall : ∀ g ∈ fs, decide (¬ IsEnd id g) = true := fun g hg => decide_eq_true (h g hg)
  rw [upTo, takeWhile_append_of_pos hall, takeWhile_cons_of_neg (by simpa using hf), append_nil]

lemma upTo_append (h : ∃ f ∈ fs, IsEnd id f) : upTo id (fs ++ gs) = upTo id fs := by
  have hlt : (fs.takeWhile fun f => ¬ IsEnd id f).length ≠ fs.length := by
    intro heq
    obtain ⟨f, hf, hend⟩ := h
    have hall := (List.takeWhile_prefix (l := fs) fun f => ¬ IsEnd id f).eq_of_length heq
    have hf' := all_eq_true.mp all_takeWhile f (hall.symm ▸ hf)
    exact of_decide_eq_true hf' hend
  rw [upTo, takeWhile_append, if_neg hlt, upTo]

lemma payload_keep (id : UInt16) (data : Str) : payload id (Call.keep id data).frames = data := by
  have hframes : (Call.keep id data).frames =
      (chunks data.length data).map fun d => (keepFrame id, d) := by
    rw [Call.frames, Call.written, map_map]
    rfl
  have hall : ∀ f ∈ (Call.keep id data).frames, decide (IsKeep id f) = true := by
    intro f hf
    rw [hframes] at hf
    obtain ⟨d, -, rfl⟩ := mem_map.mp hf
    exact decide_eq_true ⟨rfl, rfl⟩
  rw [payload, filter_eq_self.mpr hall, hframes, flatMap_def, map_map]
  exact (congrArg List.flatten (map_id _)).trans (flatten_chunks le_rfl)

def news (fs : List Frame) : List Frame := fs.filter fun f => f.1.status = statusNew

lemma news_append (fs gs : List Frame) : news (fs ++ gs) = news fs ++ news gs :=
  filter_append fs gs

lemma mem_news : f ∈ news fs ↔ f ∈ fs ∧ f.1.status = statusNew := by
  rw [news, mem_filter, decide_eq_true_iff]

lemma news_eq_nil (h : ∀ f ∈ fs, f.1.status ≠ statusNew) : news fs = [] :=
  filter_eq_nil_iff.mpr fun f hf => by simpa using h f hf

end

lemma FrameMetadata.normal_status (m : FrameMetadata) : m.normal.status = m.status := by
  rw [normal]
  split <;> rfl

lemma FrameMetadata.normal_sessionID (m : FrameMetadata) : m.normal.sessionID = m.sessionID := by
  rw [normal]
  split <;> rfl

lemma FrameMetadata.carrying_status (m : FrameMetadata) (data : Str) :
    (m.carrying data).status = m.status := by
  rw [carrying]
  split <;> rfl

lemma FrameMetadata.carrying_sessionID (m : FrameMetadata) (data : Str) :
    (m.carrying data).sessionID = m.sessionID := by
  rw [carrying]
  split <;> rfl

def Call.sessionID : Call → UInt16
  | .frame m _ => m.sessionID
  | .keep id _ => id
  | .stop id _ => id

def Call.status : Call → UInt8
  | .frame m _ => m.status
  | .keep _ _ => statusKeep
  | .stop _ _ => statusEnd

lemma Call.of_mem_frames {c : Call} {f : Frame} (h : f ∈ c.frames) :
    f.1.sessionID = c.sessionID ∧ f.1.status = c.status := by
  cases c with
  | frame m data =>
    obtain rfl := mem_singleton.mp h
    exact ⟨(FrameMetadata.normal_sessionID _).trans (m.carrying_sessionID data),
      (FrameMetadata.normal_status _).trans (m.carrying_status data)⟩
  | keep id data =>
    obtain ⟨g, hg, rfl⟩ := mem_map.mp h
    obtain ⟨d, -, rfl⟩ := mem_map.mp hg
    exact ⟨rfl, rfl⟩
  | stop id e =>
    obtain rfl := mem_singleton.mp h
    exact ⟨rfl, rfl⟩

lemma Call.news_frames {c : Call} (h : c.status ≠ statusNew) : news c.frames = [] :=
  news_eq_nil fun _ hf hs => h ((of_mem_frames hf).2.symm.trans hs)

/-! ### Pipes -/

def sessionBufLimit : Nat := 64 * 1024

structure BufPipe where
  buf : Str := []
  closed : Bool := false
  deriving DecidableEq

namespace BufPipe

variable (p : BufPipe)

/-- One turn of `Write`: the bytes that it still has to write when it waits for
space. Without any it has returned, as it does on a closed pipe. -/
def write (b : Str) : BufPipe × Str :=
  if p.closed then (p, [])
  else
    let space := sessionBufLimit - p.buf.length
    ({ p with buf := p.buf ++ b.take space }, b.drop space)

/-- `Read` into a buffer of `n` bytes, where it does not have to wait. -/
def read (n : Nat) : Option (Except Error Str × BufPipe) :=
  if p.buf.length = 0 then if p.closed then some (.error .eof, p) else none
  else some (.ok (p.buf.take n), { p with buf := p.buf.drop n })

def close : BufPipe := { p with closed := true }

variable {p} {b rest d : Str} {n : Nat} {p' : BufPipe}

@[simp]
lemma write_closed (p : BufPipe) (b : Str) : (p.write b).1.closed = p.closed := by
  rw [write]
  split <;> rfl

lemma write_of_closed (h : p.closed = true) (b : Str) : p.write b = (p, []) := by
  rw [write, if_pos h]

@[simp]
lemma write_nil (p : BufPipe) : p.write [] = (p, []) := by
  rw [write]
  split <;> simp

lemma write_conserves (h : p.closed = false) (b : Str) :
    (p.write b).1.buf ++ (p.write b).2 = p.buf ++ b := by
  rw [write, if_neg (by simp [h]), append_assoc, take_append_drop]

lemma read_conserves (h : p.read n = some (.ok d, p')) :
    p.buf ≠ [] ∧ p.buf = d ++ p'.buf ∧ p'.closed = p.closed := by
  rw [read] at h
  split_ifs at h with hbuf
  · simp at h
  · simp only [Option.some.injEq, Prod.mk.injEq, Except.ok.injEq] at h
    obtain ⟨rfl, rfl⟩ := h
    exact ⟨mt length_eq_zero_iff.mpr hbuf, (take_append_drop n p.buf).symm, rfl⟩

lemma read_eof {e : Error} (h : p.read n = some (.error e, p')) :
    p.buf = [] ∧ p.closed = true ∧ p' = p := by
  rw [read] at h
  split_ifs at h with hbuf hclosed
  · simp only [Option.some.injEq, Prod.mk.injEq] at h
    exact ⟨length_eq_zero_iff.mp hbuf, hclosed, h.2.symm⟩
  · simp at h

end BufPipe

end Ntr.Mux
