import AgentValet.Base.Pieces
import AgentValet.Base.Runs
import AgentValet.Broker.AuditText

namespace AgentValet.Broker.JsonlAuditSink
open Base Lang

/-- How far one `emit` has come. -/
inductive Phase where
  | making
  /-- So much of the line is written. -/
  | appending (written : ℕ)
  | appended
  /-- The append has failed with so much of the line written. -/
  | failed (written : ℕ)
  deriving DecidableEq

structure Emit where
  event : AuditEvent
  phase : Phase
  deriving DecidableEq

/-- The sink, the bytes of its file, and all calls of `emit` so far. -/
structure Sink where
  ensured : Bool
  file : Bytes
  emits : List Emit

inductive Move where
  | emit (event : AuditEvent)
  /-- `mkdir` has ended for this call, well or not. -/
  | made (i : ℕ)
  /-- One write of `appendFile`, of so many more bytes; a long line takes several. -/
  | write (i more : ℕ)
  | fail (i : ℕ)

def newline : UInt8 := 10

def lineOf (event : AuditEvent) : Bytes := event.bytes ++ [newline]

def Sink.set (s : Sink) (i : ℕ) (e : Emit) : Sink := { s with emits := s.emits.set i e }

/-- The sink after a move; a call that is not at that point does not move. -/
def step (s : Sink) : Move → Sink
  | .emit event =>
    { s with emits := s.emits ++ [⟨event, if s.ensured then .appending 0 else .making⟩] }
  | .made i =>
    match s.emits[i]? with
    | some ⟨event, .making⟩ => { s.set i ⟨event, .appending 0⟩ with ensured := true }
    | _ => s
  | .write i more =>
    match s.emits[i]? with
    | some ⟨event, .appending written⟩ =>
      let phase := if (lineOf event).length ≤ written + more then .appended
        else .appending (written + more)
      { s.set i ⟨event, phase⟩ with file := s.file ++ ((lineOf event).drop written).take more }
    | _ => s
  | .fail i =>
    match s.emits[i]? with
    | some ⟨event, .appending written⟩ => s.set i ⟨event, .failed written⟩
    | _ => s

def start (before : Bytes) : Sink := ⟨false, before, []⟩

def run (before : Bytes) (moves : List Move) : Sink := moves.foldl step (start before)

def Emit.settled (e : Emit) : Bool :=
  match e.phase with
  | .appended => true
  | .failed _ => true
  | _ => false

/-- Some of the line is written, and not all of it. -/
def Emit.begun (e : Emit) : Bool :=
  match e.phase with
  | .appending written => 0 < written
  | _ => false

def begunPiece (event : AuditEvent) (written : ℕ) : Piece UInt8 :=
  if written ≤ event.bytes.length then .torn (event.bytes.take written) else .whole event.bytes

def Emit.piece (e : Emit) : Piece UInt8 :=
  match e.phase with
  | .making => .torn []
  | .appending written => begunPiece e.event written
  | .appended => .whole e.event.bytes
  | .failed written => begunPiece e.event written

theorem notMem_begunPiece (event : AuditEvent) (written : ℕ) :
    newline ∉ (begunPiece event written).body := by
  rw [begunPiece]
  split_ifs
  · exact fun hmem => event.notMem_bytes (List.mem_of_mem_take hmem)
  · exact event.notMem_bytes

theorem notMem_piece (e : Emit) : newline ∉ e.piece.body := by
  rw [Emit.piece]
  split
  · exact List.not_mem_nil
  · exact notMem_begunPiece _ _
  · exact e.event.notMem_bytes
  · exact notMem_begunPiece _ _

theorem text_begunPiece (event : AuditEvent) (written : ℕ) :
    (begunPiece event written).text newline = (lineOf event).take written := by
  rw [begunPiece]
  split_ifs with hle
  · rw [lineOf, List.take_append_of_le_length hle]
    rfl
  · rw [lineOf, List.take_of_length_le (by simp; omega)]
    rfl

/-- While a call writes, no other call is amid its line. -/
def Apart (s : Sink) : Move → Prop
  | .write i _ => ∀ j e, s.emits[j]? = some e → e.begun = true → j = i
  | _ => True

/-- The calls amid their lines are none, or one. -/
def Amid (emits : List Emit) (current : Option ℕ) : Prop :=
  ∀ i, current = some i ↔ ∃ e, emits[i]? = some e ∧ e.begun = true

def piecesOf (emits : List Emit) (current : Option ℕ) (settled : List Emit) :
    List (Piece UInt8) :=
  (settled ++ (current.bind fun i => emits[i]?).toList).map Emit.piece

/-- The calls that have settled, as they settled, and at last the one that is amid its line make up
what is new in the file; none appends before a directory was made. -/
structure Recorded (before : Bytes) (s : Sink) : Prop where
  made : ∀ e ∈ s.emits, e.phase ≠ .making → s.ensured = true
  record : ∃ (settled : List Emit) (current : Option ℕ),
    settled.Perm (s.emits.filter Emit.settled) ∧ Amid s.emits current ∧
    s.file = before ++ (piecesOf s.emits current settled).flatMap (Piece.text newline)

theorem filter_set_perm {l : List Emit} {i : ℕ} {e e' : Emit} (he : l[i]? = some e)
    (hsettled : e.settled = false) :
    ((l.set i e').filter Emit.settled).Perm
      (l.filter Emit.settled ++ [e'].filter Emit.settled) := by
  obtain ⟨hi, rfl⟩ := List.getElem?_eq_some_iff.1 he
  have hsplit : l = l.take i ++ l[i] :: l.drop (i + 1) := by
    rw [List.getElem_cons_drop, List.take_append_drop]
  have hset : l.set i e' = l.take i ++ e' :: l.drop (i + 1) := List.set_eq_take_append_cons_drop ▸
    if_pos hi
  have hl : l.filter Emit.settled =
      (l.take i).filter Emit.settled ++ (l.drop (i + 1)).filter Emit.settled := by
    conv_lhs => rw [hsplit]
    rw [List.filter_append, List.filter_cons_of_neg (by simp [hsettled])]
  rw [hset, hl, List.filter_append, ← List.singleton_append, List.filter_append, List.append_assoc]
  exact List.Perm.append_left _ List.perm_append_comm

theorem recorded_start (before : Bytes) : Recorded before (start before) where
  made := by simp [start]
  record := ⟨[], none, .refl _, by simp [Amid, start], by simp [piecesOf, start]⟩

variable {before : Bytes} {s : Sink} {emits settled : List Emit} {current : Option ℕ} {i : ℕ}
  {e e' : Emit} {event : AuditEvent} {written : ℕ}

theorem mem_set {l : List Emit} {i : ℕ} {e' x : Emit} (hx : x ∈ l.set i e') : x ∈ l ∨ x = e' :=
  List.mem_or_eq_of_mem_set hx

theorem perm_settle (hperm : settled.Perm (emits.filter Emit.settled))
    (he : emits[i]? = some e) (hnot : e.settled = false) (hsettled : e'.settled = true) :
    (settled ++ [e']).Perm ((emits.set i e').filter Emit.settled) := by
  have hset := @filter_set_perm emits i e e' he hnot
  rw [List.filter_cons_of_pos hsettled, List.filter_nil] at hset
  exact (hperm.append_right _).trans hset.symm

theorem perm_stay (hperm : settled.Perm (emits.filter Emit.settled))
    (he : emits[i]? = some e) (hnot : e.settled = false) (hnot' : e'.settled = false) :
    settled.Perm ((emits.set i e').filter Emit.settled) := by
  have hset := @filter_set_perm emits i e e' he hnot
  rw [List.filter_cons_of_neg (by simp [hnot']), List.filter_nil, List.append_nil] at hset
  exact hperm.trans hset.symm

theorem getElem?_set (he : emits[i]? = some e) : (emits.set i e')[i]? = some e' :=
  List.getElem?_set_self (List.getElem?_eq_some_iff.1 he).1

theorem Amid.notBegun (h : Amid emits current) (he : emits[i]? = some e)
    (hbegun : e.begun = false) : current ≠ some i := by
  intro hcurrent
  obtain ⟨x, hx, hxbegun⟩ := (h i).1 hcurrent
  obtain rfl := Option.some.inj (he.symm.trans hx)
  rw [hbegun] at hxbegun
  cases hxbegun

/-- What happens to a call that is not amid its line leaves the one that is. -/
theorem Amid.set (h : Amid emits current) (he : emits[i]? = some e) (hbegun : e.begun = false)
    (hbegun' : e'.begun = false) :
    Amid (emits.set i e') current ∧
      ∀ settled, piecesOf (emits.set i e') current settled = piecesOf emits current settled := by
  have hne := h.notBegun he hbegun
  constructor
  · intro j
    by_cases hj : j = i
    · rw [hj, getElem?_set he]
      exact iff_of_false hne (by simp [hbegun'])
    · rw [List.getElem?_set_ne (Ne.symm hj)]
      exact h j
  · intro settled
    cases current with
    | none => rfl
    | some j =>
      have hj : i ≠ j := fun hij => hne (by rw [hij])
      rw [piecesOf, piecesOf, Option.bind_some, Option.bind_some, List.getElem?_set_ne hj]

/-- With the one call that was amid its line, none is. -/
theorem amid_set_none (hapart : ∀ j x, emits[j]? = some x → x.begun = true → j = i)
    (he : emits[i]? = some e) (hbegun : e'.begun = false) : Amid (emits.set i e') none := by
  intro j
  refine iff_of_false (fun h => by cases h) ?_
  rintro ⟨x, hx, hxbegun⟩
  by_cases hj : j = i
  · rw [hj, getElem?_set he] at hx
    rw [← Option.some.inj hx, hbegun] at hxbegun
    cases hxbegun
  · rw [List.getElem?_set_ne (Ne.symm hj)] at hx
    exact hj (hapart j x hx hxbegun)

theorem amid_set_some (hapart : ∀ j x, emits[j]? = some x → x.begun = true → j = i)
    (he : emits[i]? = some e) (hbegun : e'.begun = true) : Amid (emits.set i e') (some i) := by
  intro j
  by_cases hj : j = i
  · rw [hj, getElem?_set he]
    exact iff_of_true rfl ⟨e', rfl, hbegun⟩
  · rw [List.getElem?_set_ne (Ne.symm hj)]
    refine iff_of_false (fun h => hj (Option.some.inj h).symm) ?_
    rintro ⟨x, hx, hxbegun⟩
    exact hj (hapart j x hx hxbegun)

/-- Where no other call is amid its line, the file ends with what this one has written. -/
theorem Amid.text_pieces (h : Amid emits current)
    (hapart : ∀ j x, emits[j]? = some x → x.begun = true → j = i)
    (he : emits[i]? = some ⟨event, .appending written⟩) :
    (piecesOf emits current settled).flatMap (Piece.text newline) =
      (settled.map Emit.piece).flatMap (Piece.text newline) ++ (lineOf event).take written := by
  rw [piecesOf, List.map_append, List.flatMap_append]
  congr 1
  cases current with
  | none =>
    have hnot : (Emit.mk event (.appending written)).begun = false := by
      rw [Bool.eq_false_iff]
      exact fun hbegun => by cases (h i).2 ⟨_, he, hbegun⟩
    obtain rfl : written = 0 := by simpa [Emit.begun] using hnot
    rfl
  | some j =>
    obtain ⟨x, hx, hxbegun⟩ := (h j).1 rfl
    obtain rfl := hapart j x hx hxbegun
    rw [Option.bind_some, he]
    simpa [Emit.piece] using text_begunPiece event written

theorem text_pieces_append (settled : List Emit) (e : Emit) :
    (piecesOf emits none (settled ++ [e])).flatMap (Piece.text newline) =
      (settled.map Emit.piece).flatMap (Piece.text newline) ++ e.piece.text newline := by
  simp [piecesOf]

theorem Recorded.write (h : Recorded before s) (more : ℕ) (hapart : Apart s (.write i more)) :
    Recorded before (step s (.write i more)) := by
  rw [JsonlAuditSink.step]
  split
  case h_2 => exact h
  case h_1 event written he =>
    obtain ⟨settled, current, hperm, hamid, hfile⟩ := h.record
    have hmade : ∀ phase, ∀ x ∈ (s.set i ⟨event, phase⟩).emits, x.phase ≠ .making →
        s.ensured = true := by
      intro phase x hx hphase
      obtain hx | rfl := mem_set hx
      · exact h.made x hx hphase
      · exact h.made _ (List.mem_of_getElem? he) (by simp)
    have htext : s.file ++ ((lineOf event).drop written).take more =
        before ++ ((settled.map Emit.piece).flatMap (Piece.text newline) ++
          (lineOf event).take (written + more)) := by
      rw [hfile, hamid.text_pieces hapart he, List.take_add, List.append_assoc, List.append_assoc]
    dsimp only
    rw [htext]
    split_ifs with hall
    · refine ⟨hmade _, settled ++ [⟨event, .appended⟩], none, perm_settle hperm he rfl rfl,
        amid_set_none hapart he rfl, ?_⟩
      rw [text_pieces_append, List.take_of_length_le hall]
      rfl
    · have hsettled : settled.Perm ((s.emits.set i ⟨event, .appending (written + more)⟩).filter
          Emit.settled) := perm_stay hperm he rfl rfl
      cases hbegun : (Emit.mk event (.appending (written + more))).begun with
      | false =>
        refine ⟨hmade _, settled, none, hsettled, amid_set_none hapart he hbegun, ?_⟩
        have hzero : written + more = 0 := by simpa [Emit.begun] using hbegun
        simp [piecesOf, hzero]
      | true =>
        refine ⟨hmade _, settled, some i, hsettled, amid_set_some hapart he hbegun, ?_⟩
        have hget : (s.set i ⟨event, .appending (written + more)⟩).emits[i]? =
            some ⟨event, .appending (written + more)⟩ := getElem?_set he
        rw [piecesOf, Option.bind_some, hget, List.map_append, List.flatMap_append,
          ← text_begunPiece]
        simp [Emit.piece]

theorem Recorded.fail (h : Recorded before s) (i : ℕ) : Recorded before (step s (.fail i)) := by
  rw [JsonlAuditSink.step]
  split
  case h_2 => exact h
  case h_1 event written he =>
    obtain ⟨settled, current, hperm, hamid, hfile⟩ := h.record
    have hmade : ∀ x ∈ (s.set i ⟨event, .failed written⟩).emits, x.phase ≠ .making →
        s.ensured = true := by
      intro x hx hphase
      obtain hx | rfl := mem_set hx
      · exact h.made x hx hphase
      · exact h.made _ (List.mem_of_getElem? he) (by simp)
    have hsettled : (settled ++ [Emit.mk event (.failed written)]).Perm
        ((s.emits.set i ⟨event, .failed written⟩).filter Emit.settled) :=
      perm_settle hperm he rfl rfl
    cases hbegun : (Emit.mk event (.appending written)).begun with
    | false =>
      obtain rfl : written = 0 := by simpa [Emit.begun] using hbegun
      obtain ⟨hset, hpieces⟩ :=
        @Amid.set s.emits current i _ ⟨event, .failed 0⟩ hamid he hbegun rfl
      refine ⟨hmade, settled ++ [⟨event, .failed 0⟩], current, hsettled, hset, ?_⟩
      have hnothing : (Emit.mk event (.failed 0)).piece.text newline = [] := by
        rw [Emit.piece, text_begunPiece, List.take_zero]
      have htext : (piecesOf s.emits current (settled ++ [⟨event, .failed 0⟩])).flatMap
          (Piece.text newline) =
            (piecesOf s.emits current settled).flatMap (Piece.text newline) := by
        simp [piecesOf, hnothing]
      refine hfile.trans ?_
      rw [← htext, ← hpieces]
      rfl
    | true =>
      have hapart : ∀ j x, s.emits[j]? = some x → x.begun = true → j = i := by
        intro j x hx hxbegun
        have hi : current = some i := (hamid i).2 ⟨_, he, hbegun⟩
        have hj : current = some j := (hamid j).2 ⟨x, hx, hxbegun⟩
        exact Option.some.inj (hj.symm.trans hi)
      refine ⟨hmade, settled ++ [⟨event, .failed written⟩], none, hsettled,
        amid_set_none hapart he rfl, ?_⟩
      rw [text_pieces_append]
      refine hfile.trans ?_
      rw [hamid.text_pieces hapart he, ← text_begunPiece]
      rfl

theorem Recorded.emit (h : Recorded before s) (event : AuditEvent) :
    Recorded before (step s (.emit event)) := by
  obtain ⟨settled, current, hperm, hamid, hfile⟩ := h.record
  have hnew : ∀ e, (s.emits ++ [e])[s.emits.length]? = some e := fun e => by simp
  have hold : ∀ e j, j ≠ s.emits.length → (s.emits ++ [e])[j]? = s.emits[j]? := by
    intro e j hj
    rw [List.getElem?_append]
    split_ifs with hlt
    · rfl
    · rw [List.getElem?_eq_none (by simp; omega), List.getElem?_eq_none (by omega)]
  have hbegun : (Emit.mk event (if s.ensured then .appending 0 else .making)).begun = false := by
    cases s.ensured <;> rfl
  have hunsettled :
      (Emit.mk event (if s.ensured then .appending 0 else .making)).settled = false := by
    cases s.ensured <;> rfl
  have hlength : current ≠ some s.emits.length := by
    intro hcurrent
    obtain ⟨e, he, -⟩ := (hamid _).1 hcurrent
    simp at he
  refine ⟨?_, settled, current, ?_, ?_, ?_⟩
  · intro x hx hphase
    obtain hx | hx := List.mem_append.1 hx
    · exact h.made x hx hphase
    · obtain rfl := List.mem_singleton.1 hx
      cases hensured : s.ensured with
      | true => exact hensured
      | false => simp [hensured] at hphase
  · rwa [JsonlAuditSink.step, List.filter_append,
      List.filter_cons_of_neg (by simp [hunsettled]), List.filter_nil, List.append_nil]
  · intro j
    rw [JsonlAuditSink.step]
    by_cases hj : j = s.emits.length
    · rw [hj, hnew]
      exact iff_of_false hlength (by simp [hbegun])
    · rw [hold _ j hj]
      exact hamid j
  · refine hfile.trans ?_
    rw [JsonlAuditSink.step]
    cases current with
    | none => rfl
    | some j =>
      have hj : j ≠ s.emits.length := fun hj => hlength (congrArg some hj)
      rw [piecesOf, piecesOf, Option.bind_some, Option.bind_some, hold _ j hj]

theorem Recorded.making (h : Recorded before s) (i : ℕ) : Recorded before (step s (.made i)) := by
  rw [JsonlAuditSink.step]
  split
  next event he =>
    obtain ⟨settled, current, hperm, hamid, hfile⟩ := h.record
    obtain ⟨hset, hpieces⟩ :=
      @Amid.set s.emits current i _ ⟨event, .appending 0⟩ hamid he rfl rfl
    refine ⟨fun _ _ _ => rfl, settled, current, perm_stay hperm he rfl rfl, hset, ?_⟩
    refine hfile.trans ?_
    rw [← hpieces]
    rfl
  · exact h

theorem Recorded.step {m : Move} (h : Recorded before s) (hapart : Apart s m) :
    Recorded before (step s m) := by
  cases m with
  | emit event => exact h.emit event
  | made i => exact h.making i
  | write i more => exact h.write more hapart
  | fail i => exact h.fail i

theorem recorded_run {moves : List Move} (before : Bytes)
    (h : Along JsonlAuditSink.step Apart (start before) moves) :
    Recorded before (run before moves) :=
  h.inv (fun _ _ hrecorded hapart => hrecorded.step hapart) (recorded_start before)

/-- No call is amid its line, and no line is longer than this. -/
def Short (longest : ℕ) (emits : List Emit) : Prop :=
  ∀ e ∈ emits, e.begun = false ∧ (lineOf e.event).length ≤ longest

theorem Short.set {longest : ℕ} {phase phase' : Phase} (h : Short longest emits)
    (he : emits[i]? = some ⟨event, phase⟩) (hbegun : (Emit.mk event phase').begun = false) :
    Short longest (emits.set i ⟨event, phase'⟩) := by
  intro x hx
  obtain hx | rfl := mem_set hx
  · exact h x hx
  · exact ⟨hbegun, (h _ (List.mem_of_getElem? he)).2⟩

theorem Short.step {longest : ℕ} {m : Move} (h : Short longest s.emits)
    (hline : ∀ event, m = .emit event → (lineOf event).length ≤ longest)
    (hwrite : ∀ i more, m = .write i more → longest ≤ more) :
    Short longest (step s m).emits := by
  cases m with
  | emit event =>
    refine List.forall_mem_append.2 ⟨h, fun x hx => ?_⟩
    obtain rfl := List.mem_singleton.1 hx
    refine ⟨?_, hline event rfl⟩
    cases s.ensured <;> rfl
  | made i =>
    rw [JsonlAuditSink.step]
    split
    next event he => exact h.set he rfl
    · exact h
  | write i more =>
    rw [JsonlAuditSink.step]
    split
    next event written he =>
      have hlength : (lineOf event).length ≤ longest := (h _ (List.mem_of_getElem? he)).2
      have hmore := hwrite i more rfl
      rw [if_pos (by omega)]
      exact h.set he rfl
    · exact h
  | fail i =>
    rw [JsonlAuditSink.step]
    split
    next event written he => exact h.set he rfl
    · exact h

/-- Where each write may take a whole line, no call is ever amid its line. -/
theorem along_apart_of_short {moves : List Move} {longest : ℕ}
    (hlines : ∀ event, .emit event ∈ moves → (lineOf event).length ≤ longest)
    (hwrites : ∀ i more, .write i more ∈ moves → longest ≤ more) :
    Along step Apart (start before) moves := by
  suffices hshort : ∀ s : Sink, Short longest s.emits → Along step Apart s moves from
    hshort _ fun e he => by cases he
  induction moves with
  | nil => exact fun _ _ => trivial
  | cons m moves ih =>
    intro s hs
    refine ⟨?_, ih (fun event h => hlines event (List.mem_cons_of_mem _ h))
      (fun i more h => hwrites i more (List.mem_cons_of_mem _ h)) _
      (hs.step (fun event h => hlines event (h ▸ List.mem_cons_self))
        fun i more h => hwrites i more (h ▸ List.mem_cons_self))⟩
    cases m with
    | write i more =>
      intro j e he hbegun
      rw [(hs e (List.mem_of_getElem? he)).1] at hbegun
      cases hbegun
    | _ => trivial

def Move.event? : Move → Option AuditEvent
  | .emit event => some event
  | _ => none

theorem event_set {l : List Emit} {i : ℕ} {event : AuditEvent} {phase phase' : Phase}
    (he : l[i]? = some ⟨event, phase⟩) :
    (l.set i ⟨event, phase'⟩).map Emit.event = l.map Emit.event := by
  obtain ⟨hi, hget⟩ := List.getElem?_eq_some_iff.1 he
  have hlength : i < (l.map Emit.event).length := by rwa [List.length_map]
  have hevent : (l.map Emit.event)[i] = event := by rw [List.getElem_map, hget]
  rw [List.map_set]
  conv_lhs => rw [← hevent]
  exact List.set_getElem_self _

theorem events_step (s : Sink) (m : Move) :
    (step s m).emits.map Emit.event = s.emits.map Emit.event ++ m.event?.toList := by
  cases m with
  | emit event => simp [step, Move.event?]
  | made i =>
    rw [step]
    split
    next event he => simp [Sink.set, Move.event?, event_set he]
    · simp [Move.event?]
  | write i more =>
    rw [step]
    split
    next event written he => simp [Sink.set, Move.event?, event_set he]
    · simp [Move.event?]
  | fail i =>
    rw [step]
    split
    next event written he => simp [Sink.set, Move.event?, event_set he]
    · simp [Move.event?]

/-- The calls are those that were made. -/
theorem events_run (before : Bytes) (moves : List Move) :
    (run before moves).emits.map Emit.event = moves.filterMap Move.event? := by
  induction moves using List.reverseRecOn with
  | nil => rfl
  | append_singleton moves m ih =>
    rw [run, List.foldl_concat, events_step, List.filterMap_append]
    change (run before moves).emits.map Emit.event ++ _ = _
    rw [ih]
    cases h : m.event? <;> simp [h]

/-- In a run in which no two calls are amid their lines side by side, each call that has settled has
left its piece once, and nothing else is new in the file but what one call has written of its line.
Where all have appended to a file of whole lines, the new lines are the texts of the events that
were emitted, which can be read off them. -/
theorem log_run {before : Bytes} {moves : List Move}
    (hapart : Along step Apart (start before) moves) :
    let s := run before moves
    (∀ e ∈ s.emits, e.phase ≠ .making → s.ensured = true) ∧
    (∃ (settled : List Emit) (current : Option ℕ),
      settled.Perm (s.emits.filter Emit.settled) ∧ Amid s.emits current ∧
      s.file = before ++ (piecesOf s.emits current settled).flatMap (Piece.text newline) ∧
      endedLines newline s.file = endedLines newline before ++
        Piece.lines (openLine newline before) (piecesOf s.emits current settled)) ∧
    (openLine newline before = [] → (∀ e ∈ s.emits, e.phase = .appended) →
      openLine newline s.file = [] ∧
      ∃ events : List AuditEvent, events.Perm (moves.filterMap Move.event?) ∧
        ∀ read : List AuditEvent,
          endedLines newline s.file = endedLines newline before ++ read.map AuditEvent.bytes ↔
            read = events) := by
  intro s
  have hrecorded : Recorded before s := recorded_run before hapart
  obtain ⟨settled, current, hperm, hamid, hfile⟩ := hrecorded.record
  have hpieces : ∀ p ∈ piecesOf s.emits current settled, newline ∉ p.body := by
    intro p hp
    obtain ⟨e, -, rfl⟩ := List.mem_map.1 hp
    exact notMem_piece e
  obtain ⟨hlines, hopen⟩ := Piece.read_append_pieces hpieces before
  rw [← hfile] at hlines hopen
  refine ⟨hrecorded.made, ⟨settled, current, hperm, hamid, hfile, hlines⟩, fun hbefore hall => ?_⟩
  have hsettled : s.emits.filter Emit.settled = s.emits :=
    List.filter_eq_self.2 fun e he => by rw [Emit.settled, hall e he]
  have hnone : current = none := by
    cases hcurrent : current with
    | none => rfl
    | some i =>
      obtain ⟨e, he, hbegun⟩ := (hamid i).1 hcurrent
      rw [Emit.begun, hall e (List.mem_of_getElem? he)] at hbegun
      cases hbegun
  rw [hsettled] at hperm
  have hwhole : piecesOf s.emits current settled =
      ((settled.map Emit.event).map AuditEvent.bytes).map Piece.whole := by
    rw [hnone, piecesOf, Option.bind_none, Option.toList_none, List.append_nil, List.map_map,
      List.map_map]
    refine List.map_congr_left fun e he => ?_
    rw [Emit.piece, hall e (hperm.mem_iff.1 he)]
    rfl
  rw [hwhole, hbefore] at hlines hopen
  rw [(Piece.lines_of_whole _).1] at hlines
  rw [(Piece.lines_of_whole _).2] at hopen
  refine ⟨hopen, settled.map Emit.event, ?_, fun read => ?_⟩
  · rw [← events_run before moves]
    exact hperm.map Emit.event
  · rw [hlines, List.append_cancel_left_eq]
    exact ⟨fun h => (List.map_injective_iff.2 AuditEvent.bytes_injective h).symm,
      fun h => by rw [h]⟩

def sampleEvent (name : String) : AuditEvent where
  schemaVersion := 1
  ts := "2026-01-01T00:00:00.000Z"
  subject := ⟨"a1", none, "s1"⟩
  resource := ⟨"srv", "tool"⟩
  action := name
  argsFingerprint := "f"
  decision := ⟨.allow, "p1", "1"⟩
  credentialScope := none
  transport := "stdio"
  latencyMs := 1
  outcome := .allowed
  warnings := none
  error := none

def sampleMoves : List Move :=
  [.emit (sampleEvent "x"), .emit (sampleEvent "y"), .made 1, .made 0, .write 1 524288,
    .write 0 524288]

theorem log_run_sample : openLine newline (run [] sampleMoves).file = [] ∧
    ∃ events : List AuditEvent, events.Perm [sampleEvent "x", sampleEvent "y"] ∧
      endedLines newline (run [] sampleMoves).file = events.map AuditEvent.bytes := by
  have hapart : Along step Apart (start []) sampleMoves := by
    refine @along_apart_of_short [] sampleMoves 1000 ?_ ?_
    · intro event h
      simp only [sampleMoves, List.mem_cons, Move.emit.injEq, reduceCtorEq, List.not_mem_nil,
        or_false] at h
      obtain rfl | rfl := h <;> decide +kernel
    · intro i more h
      simp only [sampleMoves, List.mem_cons, Move.write.injEq, reduceCtorEq, List.not_mem_nil,
        or_false, false_or] at h
      omega
  have hall : ∀ e ∈ (run [] sampleMoves).emits, e.phase = .appended := by decide +kernel
  obtain ⟨hopen, events, hevents, hread⟩ := (log_run hapart).2.2 rfl hall
  exact ⟨hopen, events, hevents, (hread events).2 rfl⟩

end AgentValet.Broker.JsonlAuditSink
