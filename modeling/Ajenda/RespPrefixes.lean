import Ajenda.RespReading
import Mathlib.Data.List.TakeWhile

/-!
# Replies that are cut off

What is read when the connection closes within a reply. Only the bytes of a bulk string, and the
line break after it, can be missing unnoticed, and only where nothing else is to come.
-/
namespace Ajenda.Resp
open WireText (Bytes DecimalDigits decode)

mutual

/-- The last bytes of the reply are a bulk string. -/
def Reply.endsInBulk : Reply → Bool
  | .bulk _ => true
  | .array items => endInBulk items
  | _ => false

def endInBulk : List Reply → Bool
  | [] => false
  | r :: rs => if rs.isEmpty then r.endsInBulk else endInBulk rs

end

section Cuts
variable {α β : Type} {D : DecimalDigits} {read : Reader Value} {x : Reader α} {f : α → Reader β}
  {frames : ℕ} {line : Line} {p q bytes : Bytes} {tag : UInt8}

/-- The reader raises. -/
def Raises (x : Reader α) (bytes : Bytes) : Prop := ∃ e rest, x bytes = .error e rest

/-- The reader raises, or takes all there is for a value. -/
def Stops (bulk : Bool) (x : Reader α) (bytes : Bytes) : Prop :=
  Raises x bytes ∨ bulk = true ∧ ∃ v, x bytes = .ok v []

theorem Raises.bind (h : Raises x bytes) : Raises (x >>= f) bytes := by
  obtain ⟨e, rest, h⟩ := h
  exact ⟨e, rest, bind_error h⟩

/-- A proper part of one thing and another is a proper part of the first, or the first and a proper
part of the second. -/
theorem cut_append {a b : Bytes} (h : p ++ q = a ++ b) :
    (∃ a', a' ≠ [] ∧ p ++ a' = a) ∨ ∃ p', p = a ++ p' ∧ p' ++ q = b := by
  rcases List.append_eq_append_iff.1 h with ⟨c, hc, hd⟩ | ⟨c, hc, hd⟩
  · by_cases hnil : c = []
    · subst hnil
      exact .inr ⟨[], by simpa using hc.symm, by simpa using hd⟩
    · exact .inl ⟨c, hnil, hc.symm⟩
  · exact .inr ⟨c, hc, hd.symm⟩

/-- A line without its newline. -/
theorem readLine_cut (h : p ++ q = line.bytes ++ crlf) (hq : q ≠ []) : Raises (readLine frames) p := by
  have hnewline : ∀ b ∈ p, (b ≠ 10 : Bool) = true := by
    obtain ⟨q', b, rfl⟩ := List.eq_nil_or_concat' q |>.resolve_left hq
    have hsplit : (p ++ q') ++ [b] = (line.bytes ++ [13]) ++ [10] := by
      simpa [crlf] using h
    obtain ⟨hp, -⟩ := List.append_inj' hsplit rfl
    intro c hc
    have hmem : c ∈ line.bytes ++ [13] := hp ▸ List.mem_append_left _ hc
    rcases List.mem_append.1 hmem with hmem | hmem
    · simpa using (line.unbroken c hmem).1
    · rw [List.mem_singleton.1 hmem]
      rfl
  cases frames with
  | zero => exact ⟨_, _, rfl⟩
  | succ frames =>
    have hrest : readLineBytes p = .ok p [] := by
      rw [readLineBytes, List.dropWhile_eq_nil_iff.2 hnewline]
    have hsuffix : ¬crlf.isSuffixOf p = true := by
      intro hsuffix
      have hmem : (10 : UInt8) ∈ p :=
        (List.isSuffixOf_iff_suffix.1 hsuffix).subset (by simp [crlf])
      exact absurd (hnewline 10 hmem) (by decide)
    rw [readLine]
    refine ⟨.redisProtocol "malformed Redis line response", [], ?_⟩
    rw [bind_ok hrest, if_neg hsuffix]
    rfl

theorem readTagged_raises (htag : tag ∈ [(43 : UInt8), 45, 58, 36, 42])
    (h : Raises (readLine frames) bytes) : Raises (readTagged D read frames tag) bytes := by
  simp only [List.mem_cons, List.not_mem_nil, or_false] at htag
  rcases htag with rfl | rfl | rfl | rfl | rfl
  · rw [readTagged_simple]; exact h.bind
  · rw [readTagged_error]; exact h.bind
  · rw [readTagged_integer]; exact h.bind.bind
  · rw [readTagged_bulk]; exact h.bind.bind
  · rw [readTagged_array]; exact h.bind.bind

/-- A reply of which not even the first line is there. -/
theorem readResponse_line_cut (htag : tag ∈ [(43 : UInt8), 45, 58, 36, 42])
    (h : p ++ q = tagged tag line) (hq : q ≠ []) : Raises (readResponse D frames) p := by
  cases frames with
  | zero => exact ⟨_, _, rfl⟩
  | succ frames =>
    cases p with
    | nil => exact ⟨_, _, rfl⟩
    | cons b p =>
      obtain ⟨rfl, hline⟩ := List.cons.inj h
      have hraises : Raises (readTagged D (readResponse D frames) frames b) p :=
        readTagged_raises htag (readLine_cut hline hq)
      obtain ⟨e, rest, hraises⟩ := hraises
      refine ⟨e, rest, ?_⟩
      rw [readResponse, bind_ok (show readBytes 1 (b :: p) = .ok [b] p from rfl)]
      exact hraises

theorem readResponse_cut_nil : Raises (readResponse D frames) [] := by
  obtain ⟨e, h⟩ : ∃ e, readResponse D frames [] = .error e [] := readResponse_nil
  exact ⟨e, [], h⟩

theorem decodeOrRaise_stops {g : String → β} :
    Stops true (decodeOrRaise bytes >>= fun t => pure (g t)) [] := by
  cases h : decode bytes with
  | none => exact .inl ⟨_, _, bind_error (decodeOrRaise_error h)⟩
  | some t => exact .inr ⟨rfl, g t, by rw [bind_ok (decodeOrRaise_ok h)]; rfl⟩

/-- The body of a bulk string, or the line break after it, cut off. -/
theorem readBody_cut {data : Bytes} (h : p ++ q = data ++ crlf) (hq : q ≠ []) :
    Stops true (do
      let data ← readBody data.length
      let _ ← readBytes 2
      return Value.str (← decodeOrRaise data)) p := by
  have hshort : p.length < data.length + 2 := by
    have hlength := congrArg List.length h
    have hpos := List.length_pos_iff.2 hq
    simp only [List.length_append, crlf, List.length_cons, List.length_nil] at hlength
    omega
  have hbody : readBody data.length p = .ok (p.take data.length) (p.drop data.length) := by
    rw [readBody, if_neg (by omega), Int.toNat_natCast, readBytes]
  have hend : readBytes 2 (p.drop data.length) = .ok ((p.drop data.length).take 2) [] := by
    have hnil : (p.drop data.length).drop 2 = [] := by
      rw [List.drop_drop]
      exact List.drop_eq_nil_of_le (by omega)
    rw [readBytes, hnil]
  have hstops : Stops true
      (decodeOrRaise (p.take data.length) >>= fun t => pure (Value.str t)) [] :=
    decodeOrRaise_stops
  unfold Stops Raises at hstops ⊢
  rwa [bind_ok hbody, bind_ok hend]

end Cuts

section Prefixes
variable {D : DecimalDigits}

theorem Raises.of_one {r : Reply} {p q : Bytes} (h : p ++ q = r.encode) :
    Raises (readResponse D 1) p := by
  obtain ⟨tag, htag, line, body, hr⟩ := encode_tagged r
  cases p with
  | nil => exact ⟨_, _, rfl⟩
  | cons b p =>
    rw [hr] at h
    obtain ⟨rfl, -⟩ := List.cons.inj h
    refine ⟨.recursion, p, ?_⟩
    rw [readResponse, bind_ok (show readBytes 1 (b :: p) = .ok [b] p from rfl)]
    exact readTagged_frameless htag

mutual

/-- A reply that is cut off is refused, unless it ends in a bulk string. -/
theorem readResponse_cut (frames : ℕ) (r : Reply) (p q : Bytes) (h : p ++ q = r.encode)
    (hq : q ≠ []) : Stops r.endsInBulk (readResponse D frames) p := by
  match frames, r with
  | 0, r => exact .inl ⟨_, _, rfl⟩
  | 1, r => exact .inl (Raises.of_one h)
  | frames + 2, .simple line => exact .inl (readResponse_line_cut (by simp) h hq)
  | frames + 2, .error line => exact .inl (readResponse_line_cut (by simp) h hq)
  | frames + 2, .integer z => exact .inl (readResponse_line_cut (by simp) h hq)
  | frames + 2, .nullBulk => exact .inl (readResponse_line_cut (by simp) h hq)
  | frames + 2, .nullArray => exact .inl (readResponse_line_cut (by simp) h hq)
  | frames + 2, .bulk data =>
    rcases cut_append h with ⟨q', hq', hline⟩ | ⟨p', rfl, hbody⟩
    · exact .inl (readResponse_line_cut (by simp) hline hq')
    · have hlength : (data.length : ℤ) ≠ -1 := by omega
      have hstops := readBody_cut hbody hq
      unfold Stops Raises at hstops ⊢
      rwa [readResponse_tagged, readTagged_bulk, bind_ok (readInt_line _), if_neg hlength]
  | frames + 2, .array items =>
    rcases cut_append h with ⟨q', hq', hline⟩ | ⟨p', rfl, hitems⟩
    · exact .inl (readResponse_line_cut (by simp) hline hq')
    · have hlength : (items.length : ℤ) ≠ -1 := by omega
      have hstops := readItems_cut (frames + 1) items p' q hitems hq
      unfold Stops Raises
      rw [readResponse_tagged, readTagged_array, bind_ok (readInt_line _), if_neg hlength,
        Int.toNat_natCast]
      rcases hstops with hraises | ⟨hbulk, vs, hok⟩
      · exact .inl hraises.bind
      · exact .inr ⟨hbulk, .list vs, by rw [bind_ok hok]; rfl⟩

theorem readItems_cut (frames : ℕ) (rs : List Reply) (p q : Bytes) (h : p ++ q = encodeAll rs)
    (hq : q ≠ []) : Stops (endInBulk rs) (readItems (readResponse D frames) rs.length) p := by
  match rs with
  | [] => exact absurd (List.append_eq_nil_iff.1 h).2 hq
  | r :: rs =>
    rw [List.length_cons, readItems]
    rcases cut_append h with ⟨q', hq', hitem⟩ | ⟨p', rfl, hitems⟩
    · rcases readResponse_cut frames r p q' hitem hq' with hraises | ⟨hbulk, v, hok⟩
      · exact .inl hraises.bind
      · unfold Stops Raises
        rw [bind_ok hok]
        cases rs with
        | nil => exact .inr ⟨by simpa [endInBulk] using hbulk, [v], rfl⟩
        | cons r' rs =>
          rw [List.length_cons, readItems]
          exact .inl readResponse_cut_nil.bind.bind
    · have hwhole := readResponse_encode (D := D) frames r p'
      have hstops := readItems_cut frames rs p' q hitems hq
      have hne : rs ≠ [] := by
        rintro rfl
        exact absurd (List.append_eq_nil_iff.1 hitems).2 hq
      unfold Stops Raises
      cases hdeliver : deliver frames r with
      | failed e unread =>
        rw [hdeliver] at hwhole
        exact .inl ⟨_, _, bind_error hwhole⟩
      | value v =>
        rw [hdeliver] at hwhole
        rw [bind_ok hwhole]
        rcases hstops with hraises | ⟨hbulk, vs, hok⟩
        · exact .inl hraises.bind
        · refine .inr ⟨?_, v :: vs, by rw [bind_ok hok]; rfl⟩
          rw [endInBulk, if_neg (by simpa using hne), hbulk]

end

theorem readBody_short {data : Bytes} {t : String} (h : decode data = some t) :
    (do
      let data ← readBody data.length
      let _ ← readBytes 2
      return Value.str (← decodeOrRaise data)) data = .ok (.str t) [] := by
  have hbody : readBody data.length data = .ok data [] := by
    rw [readBody, if_neg (by omega), Int.toNat_natCast, readBytes, List.take_length,
      List.drop_length]
  rw [bind_ok hbody, bind_ok (show readBytes 2 [] = .ok [] [] from rfl),
    bind_ok (decodeOrRaise_ok h)]
  rfl

mutual

/-- A value is read although the line break after its last bulk string is missing. -/
theorem readResponse_short (frames : ℕ) (r : Reply) (v : Value) (hbulk : r.endsInBulk = true)
    (h : deliver frames r = .value v) :
    ∃ p, p ++ crlf = r.encode ∧ readResponse D frames p = .ok v [] := by
  match frames, r with
  | 0, r => simp [deliver] at h
  | 1, r => simp [deliver] at h
  | frames + 2, .bulk data =>
    have hlength : (data.length : ℤ) ≠ -1 := by omega
    rw [deliver, deliverText] at h
    cases htext : decode data with
    | none => rw [htext] at h; cases h
    | some t =>
      rw [htext] at h
      cases h
      refine ⟨tagged 36 (decimal data.length) ++ data, by simp [Reply.encode], ?_⟩
      rw [readResponse_tagged, readTagged_bulk, bind_ok (readInt_line _), if_neg hlength]
      exact readBody_short htext
  | frames + 2, .array items =>
    have hlength : (items.length : ℤ) ≠ -1 := by omega
    rw [deliver] at h
    cases hitems : deliverAll (frames + 1) items with
    | failed e unread => rw [hitems] at h; cases h
    | value vs =>
      rw [hitems] at h
      cases h
      obtain ⟨p, hp, hread⟩ := readItems_short (frames + 1) items vs hbulk hitems
      refine ⟨tagged 42 (decimal items.length) ++ p, by rw [Reply.encode, List.append_assoc, hp], ?_⟩
      rw [readResponse_tagged, readTagged_array, bind_ok (readInt_line _), if_neg hlength,
        Int.toNat_natCast, bind_ok hread]
      rfl

theorem readItems_short (frames : ℕ) (rs : List Reply) (vs : List Value)
    (hbulk : endInBulk rs = true) (h : deliverAll frames rs = .value vs) :
    ∃ p, p ++ crlf = encodeAll rs ∧
      readItems (readResponse D frames) rs.length p = .ok vs [] := by
  match rs with
  | [] => simp [endInBulk] at hbulk
  | r :: rs =>
    rw [deliverAll] at h
    cases hitem : deliver frames r with
    | failed e unread => rw [hitem] at h; cases h
    | value w =>
      cases hitems : deliverAll frames rs with
      | failed e unread => rw [hitem, hitems] at h; cases h
      | value ws =>
        rw [hitem, hitems] at h
        cases h
        rw [List.length_cons, readItems, encodeAll]
        by_cases hnil : rs = []
        · subst hnil
          obtain ⟨p, hp, hread⟩ := readResponse_short frames r w (by simpa [endInBulk] using hbulk)
            hitem
          cases hitems
          exact ⟨p, by simp [hp, encodeAll], by rw [bind_ok hread]; rfl⟩
        · rw [endInBulk, if_neg (by simpa using hnil)] at hbulk
          obtain ⟨p, hp, hread⟩ := readItems_short frames rs ws hbulk hitems
          refine ⟨r.encode ++ p, by rw [List.append_assoc, hp], ?_⟩
          have hwhole := readResponse_encode (D := D) frames r p
          rw [hitem] at hwhole
          rw [bind_ok hwhole, bind_ok hread]
          rfl

end

end Prefixes

section Exactness
variable {D : DecimalDigits} {frames : ℕ} {r : Reply}

/-- What reading a reply has to do: hand over what it means, an error by raising it, and take its
bytes and no others; and raise when they are not all there. -/
structure ReadExactly (D : DecimalDigits) (frames : ℕ) (r : Reply) : Prop where
  whole : ∃ m, r.meaning = some m ∧ ∀ rest, readResponse D frames (r.encode ++ rest) =
    match m with
    | .ok v => .ok v rest
    | .error t => .error (.redisProtocol t) rest
  cut : ∀ p q, p ++ q = r.encode → q ≠ [] → ∃ e rest, readResponse D frames p = .error e rest

/-- The replies that are read exactly. -/
structure Readable (frames : ℕ) (r : Reply) : Prop where
  texts : ∀ t ∈ r.texts, decode t ≠ none
  nested : r.depth + 2 ≤ frames
  errorLast : r.errorLast = true
  closed : r.endsInBulk = false

theorem before_eq_ok {d : Delivery Value} {v : Value} {rest : Bytes} :
    d.before rest = .ok v rest ↔ d = .value v := by
  cases d <;> simp [Delivery.before]

theorem before_eq_error {d : Delivery Value} {e : RespError} {rest : Bytes} :
    d.before rest = .error e rest ↔ d = .failed e [] := by
  cases d <;> simp [Delivery.before]

/-- When a reply is handed over whole. -/
theorem whole_iff (D : DecimalDigits) (frames : ℕ) (r : Reply) :
    (∃ m, r.meaning = some m ∧ ∀ rest, readResponse D frames (r.encode ++ rest) =
      match m with
      | .ok v => .ok v rest
      | .error t => .error (.redisProtocol t) rest) ↔
        (∀ t ∈ r.texts, decode t ≠ none) ∧ r.depth + 2 ≤ frames ∧ r.errorLast = true := by
  simp only [readResponse_encode]
  rw [← meaning_ne_none]
  constructor
  · rintro ⟨m, hm, h⟩
    have hread := h []
    refine ⟨by rw [hm]; exact Option.some_ne_none _, ?_⟩
    cases m with
    | ok v =>
      have hdeliver := (deliver_eq_value frames r v).1 (before_eq_ok.1 hread)
      exact ⟨hdeliver.1, errorLast_of_none r (hasError_of_meaning r _ hm)⟩
    | error t =>
      have hdeliver := (deliver_eq_error frames r t).1 (before_eq_error.1 hread)
      exact ⟨hdeliver.1, hdeliver.2.2⟩
  · rintro ⟨hmeaning, hnested, hlast⟩
    obtain ⟨m, hm⟩ := Option.ne_none_iff_exists'.1 hmeaning
    refine ⟨m, hm, fun rest => ?_⟩
    cases m with
    | ok v => exact before_eq_ok.2 ((deliver_eq_value frames r v).2 ⟨hnested, hm⟩)
    | error t => exact before_eq_error.2 ((deliver_eq_error frames r t).2 ⟨hnested, hm, hlast⟩)

mutual

/-- A reply that ends in a bulk string has no error as its last part. -/
theorem no_error_of_bulk (r : Reply) (hlast : r.errorLast = true) (hbulk : r.endsInBulk = true) :
    r.hasError = false := by
  match r with
  | .bulk _ => rfl
  | .array items => exact no_errors_of_bulk items hlast hbulk

theorem no_errors_of_bulk (rs : List Reply) (hlast : errorLastAll rs = true)
    (hbulk : endInBulk rs = true) : hasErrorAll rs = false := by
  match rs with
  | [] => rfl
  | r :: rs =>
    rw [errorLastAll] at hlast
    simp only [Bool.and_eq_true, Bool.or_eq_true, Bool.not_eq_true', List.isEmpty_iff] at hlast
    obtain ⟨⟨hfirst, hor⟩, hrest⟩ := hlast
    rw [hasErrorAll, Bool.or_eq_false_iff]
    by_cases hnil : rs = []
    · subst hnil
      exact ⟨no_error_of_bulk r hfirst (by simpa [endInBulk] using hbulk), rfl⟩
    · rw [endInBulk, if_neg (by simpa using hnil)] at hbulk
      exact ⟨hor.resolve_right hnil, no_errors_of_bulk rs hrest hbulk⟩

end

/-- Replies are read exactly or not at all just when they do not end in a bulk string, hold UTF-8
texts, are not nested too deep and have nothing after an error. -/
theorem readExactly_iff (D : DecimalDigits) (frames : ℕ) (r : Reply) :
    ReadExactly D frames r ↔ Readable frames r := by
  constructor
  · intro h
    obtain ⟨htexts, hnested, hlast⟩ := (whole_iff D frames r).1 h.whole
    refine ⟨htexts, hnested, hlast, Bool.eq_false_iff.2 fun hbulk => ?_⟩
    obtain ⟨m, hm⟩ := Option.ne_none_iff_exists'.1 ((meaning_ne_none r).2 htexts)
    have hnone := no_error_of_bulk r hlast hbulk
    rw [hasError_of_meaning r m hm] at hnone
    cases m with
    | error t => cases hnone
    | ok v =>
      obtain ⟨p, hp, hread⟩ := readResponse_short frames r v hbulk
        ((deliver_eq_value frames r v).2 ⟨hnested, hm⟩) (D := D)
      obtain ⟨e, rest, hraise⟩ := h.cut p crlf hp (by simp [crlf])
      rw [hread] at hraise
      cases hraise
  · intro h
    refine ⟨(whole_iff D frames r).2 ⟨h.texts, h.nested, h.errorLast⟩, fun p q hp hq => ?_⟩
    rcases readResponse_cut frames r p q hp hq with hraises | ⟨hbulk, -⟩
    · exact hraises
    · rw [h.closed] at hbulk
      cases hbulk

/-- `$4 PONG` cut off in its body reads as `PO`. -/
theorem pong_cut_off : ∃ p q, p ++ q = (Reply.bulk [80, 79, 78, 71]).encode ∧ q ≠ [] ∧
    readResponse WireText.asciiDigits 1000 p = .ok (.str "PO") [] := by
  refine ⟨tagged 36 (decimal 4) ++ [80, 79], [78, 71, 13, 10], by rfl, by simp, ?_⟩
  have htext : decode [80, 79] = some "PO" := WireText.decode_encode "PO"
  have hbody : readBody 4 [80, 79] = .ok [80, 79] [] := rfl
  rw [readResponse_tagged, readTagged_bulk, bind_ok (readInt_line _), if_neg (by decide),
    bind_ok hbody, bind_ok (show readBytes 2 [] = .ok [] [] from rfl),
    bind_ok (decodeOrRaise_ok htext)]
  rfl

end Exactness

end Ajenda.Resp
