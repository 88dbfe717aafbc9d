import Ajenda.RespReplies

/-!
# Reading a whole reply

What reading a reply delivers, said of the reply and not of its bytes: a value, or an error with
the parts that are left unread. The reader does to the bytes what this says.
-/
namespace Ajenda.Resp
open WireText (Bytes DecimalDigits decode decode_encode readInt readInt_decimal)

section Delivery

/-- What reading the bytes of a reply comes to. -/
inductive Delivery (α : Type)
  | value (v : α)
  | failed (e : RespError) (unread : Bytes)

/-- The same with more bytes behind the reply. -/
def Delivery.before {α : Type} (rest : Bytes) : Delivery α → EStateM.Result RespError Bytes α
  | .value v => .ok v rest
  | .failed e unread => .error e (unread ++ rest)

def deliverText (text : Bytes) (deliver : String → Delivery Value) : Delivery Value :=
  match decode text with
  | some t => deliver t
  | none => .failed .unicodeDecode []

mutual

/-- What `_read_response` does with a reply. -/
def deliver : ℕ → Reply → Delivery Value
  | 0, r => .failed .recursion r.encode
  | 1, r => .failed .recursion r.encode.tail
  | _ + 2, .simple line => deliverText line.bytes fun t => .value (.str t)
  | _ + 2, .error line => deliverText line.bytes fun t => .failed (.redisProtocol t) []
  | _ + 2, .integer z => .value (.int z.toInt)
  | _ + 2, .bulk data => deliverText data fun t => .value (.str t)
  | _ + 2, .nullBulk => .value .none
  | _ + 2, .nullArray => .value .none
  | frames + 2, .array items =>
    match deliverAll (frames + 1) items with
    | .value vs => .value (.list vs)
    | .failed e unread => .failed e unread

def deliverAll (frames : ℕ) : List Reply → Delivery (List Value)
  | [] => .value []
  | r :: rs =>
    match deliver frames r with
    | .failed e unread => .failed e (unread ++ encodeAll rs)
    | .value v =>
      match deliverAll frames rs with
      | .failed e unread => .failed e unread
      | .value vs => .value (v :: vs)

end

end Delivery

section Lines
variable {α β : Type} {x y : Reader α} {f : α → Reader β} {a : α} {e : RespError}
  {bytes bytes' rest : Bytes} {frames : ℕ} {line : Line} {D : DecimalDigits}

theorem bind_ok (h : x bytes = .ok a bytes') : (x >>= f) bytes = f a bytes' := by
  simp [bind, EStateM.bind, h]

theorem bind_error (h : x bytes = .error e bytes') : (x >>= f) bytes = .error e bytes' := by
  simp [bind, EStateM.bind, h]

theorem bind_line (h : x bytes = y bytes') : (x >>= f) bytes = (y >>= f) bytes' := by
  simp only [bind, EStateM.bind, h]

theorem readLineBytes_line : readLineBytes (line.bytes ++ crlf ++ rest) =
    .ok (line.bytes ++ crlf) rest := by
  have hline : ∀ b ∈ line.bytes ++ [13], (b ≠ 10 : Bool) = true := by
    intro b hb
    rcases List.mem_append.1 hb with hb | hb
    · simpa using (line.unbroken b hb).1
    · rw [List.mem_singleton.1 hb]
      rfl
  have hsplit : line.bytes ++ crlf ++ rest = (line.bytes ++ [13]) ++ 10 :: rest := by
    simp [crlf]
  rw [readLineBytes, hsplit, List.dropWhile_append_of_pos hline, List.takeWhile_append_of_pos hline]
  simp [crlf]

/-- A whole line is read exactly. -/
theorem readLine_line : readLine (frames + 1) (line.bytes ++ crlf ++ rest) =
    decodeOrRaise line.bytes rest := by
  rw [readLine, bind_ok readLineBytes_line]
  simp [crlf, List.isSuffixOf_iff_suffix]

theorem decodeOrRaise_ok {text : String} (h : decode bytes = some text) :
    decodeOrRaise bytes rest = .ok text rest := by
  rw [decodeOrRaise, h]
  rfl

theorem decodeOrRaise_error (h : decode bytes = none) :
    decodeOrRaise bytes rest = .error .unicodeDecode rest := by
  rw [decodeOrRaise, h]
  rfl

/-- A number is read exactly. -/
theorem readInt_line (z : ℤ) :
    (readLine (frames + 1) >>= intOrRaise D) ((decimal z).bytes ++ crlf ++ rest) = .ok z rest := by
  rw [bind_ok (readLine_line.trans (decodeOrRaise_ok (decode_encode _))), intOrRaise,
    readInt_decimal]
  rfl

theorem readResponse_tagged {tag : UInt8} :
    readResponse D (frames + 1) (tagged tag line ++ rest) =
      readTagged D (readResponse D frames) frames tag (line.bytes ++ crlf ++ rest) := by
  have htag : readBytes 1 (tagged tag line ++ rest) = .ok [tag] (line.bytes ++ crlf ++ rest) := rfl
  rw [readResponse, bind_ok htag]

variable {read : Reader Value}

theorem readTagged_simple :
    readTagged D read frames 43 = readLine frames >>= fun t => pure (.str t) := rfl

theorem readTagged_error :
    readTagged D read frames 45 = readLine frames >>= fun t => throw (.redisProtocol t) := rfl

theorem readTagged_integer : readTagged D read frames 58 =
    (readLine frames >>= intOrRaise D) >>= fun z => pure (.int z) := by
  rw [bind_assoc]
  rfl

theorem readTagged_bulk : readTagged D read frames 36 =
    (readLine frames >>= intOrRaise D) >>= fun length =>
      if length = -1 then pure .none
      else do
        let data ← readBody length
        let _ ← readBytes 2
        return .str (← decodeOrRaise data) := by
  rw [bind_assoc]
  rfl

theorem readTagged_array : readTagged D read frames 42 =
    (readLine frames >>= intOrRaise D) >>= fun length =>
      if length = -1 then pure .none
      else do return .list (← readItems read length.toNat) := by
  rw [bind_assoc]
  rfl

theorem readResponse_nil : ∃ e, readResponse D frames [] = .error e [] := by
  cases frames with
  | zero => exact ⟨_, rfl⟩
  | succ frames => exact ⟨_, rfl⟩

/-- Every reply starts with a line that says what it is. -/
theorem encode_tagged (r : Reply) : ∃ tag ∈ [(43 : UInt8), 45, 58, 36, 42], ∃ line body,
    r.encode = tagged tag line ++ body := by
  cases r with
  | simple line => exact ⟨43, by simp, line, [], by simp [Reply.encode]⟩
  | error line => exact ⟨45, by simp, line, [], by simp [Reply.encode]⟩
  | integer z => exact ⟨58, by simp, decimal z.toInt, [], by simp [Reply.encode]⟩
  | bulk data => exact ⟨36, by simp, decimal data.length, data ++ crlf, by simp [Reply.encode]⟩
  | nullBulk => exact ⟨36, by simp, decimal (-1), [], by simp [Reply.encode]⟩
  | nullArray => exact ⟨42, by simp, decimal (-1), [], by simp [Reply.encode]⟩
  | array items => exact ⟨42, by simp, decimal items.length, encodeAll items, by simp [Reply.encode]⟩

theorem readTagged_frameless {tag : UInt8} (h : tag ∈ [(43 : UInt8), 45, 58, 36, 42]) :
    readTagged D read 0 tag bytes = .error .recursion bytes := by
  simp only [List.mem_cons, List.not_mem_nil, or_false] at h
  rcases h with rfl | rfl | rfl | rfl | rfl <;> rfl

theorem readResponse_one (r : Reply) :
    readResponse D 1 (r.encode ++ rest) = .error .recursion (r.encode.tail ++ rest) := by
  obtain ⟨tag, htag, line, body, hr⟩ := encode_tagged r
  rw [hr, List.append_assoc, readResponse_tagged, readTagged_frameless htag]
  simp [tagged]

theorem deliverText_before {text : Bytes} {k : String → Delivery Value} {f : String → Reader Value}
    (h : ∀ t, decode text = some t → f t rest = (k t).before rest) :
    (decodeOrRaise text >>= f) rest = (deliverText text k).before rest := by
  cases htext : decode text with
  | none =>
    rw [bind_error (decodeOrRaise_error htext), deliverText, htext]
    rfl
  | some t =>
    rw [bind_ok (decodeOrRaise_ok htext), h t htext, deliverText, htext]

/-- A body and the line break after it. -/
theorem readBody_data {data : Bytes} : readBody data.length (data ++ (crlf ++ rest)) =
    .ok data (crlf ++ rest) := by
  have hlength : ¬(data.length : ℤ) < 0 := by omega
  rw [readBody, if_neg hlength, readBytes, Int.toNat_natCast]
  simp

end Lines

section Simulation
variable {D : DecimalDigits}

mutual

/-- The reader does to the bytes of a reply what `deliver` says. -/
theorem readResponse_encode (frames : ℕ) (r : Reply) (rest : Bytes) :
    readResponse D frames (r.encode ++ rest) = (deliver frames r).before rest := by
  match frames, r with
  | 0, r => rw [deliver.eq_1]; rfl
  | 1, r => rw [readResponse_one, deliver.eq_2]; rfl
  | frames + 2, .simple line =>
    rw [Reply.encode, readResponse_tagged, readTagged_simple, bind_line readLine_line]
    exact deliverText_before fun t _ => rfl
  | frames + 2, .error line =>
    rw [Reply.encode, readResponse_tagged, readTagged_error, bind_line readLine_line]
    exact deliverText_before fun t _ => rfl
  | frames + 2, .integer z =>
    rw [Reply.encode, readResponse_tagged, readTagged_integer, bind_ok (readInt_line _)]
    rfl
  | frames + 2, .bulk data =>
    have hlength : (data.length : ℤ) ≠ -1 := by omega
    rw [Reply.encode, List.append_assoc, readResponse_tagged, readTagged_bulk,
      bind_ok (readInt_line _), if_neg hlength, List.append_assoc, bind_ok readBody_data]
    exact deliverText_before fun t _ => rfl
  | frames + 2, .nullBulk =>
    rw [Reply.encode, readResponse_tagged, readTagged_bulk, bind_ok (readInt_line _), if_pos rfl]
    rfl
  | frames + 2, .nullArray =>
    rw [Reply.encode, readResponse_tagged, readTagged_array, bind_ok (readInt_line _), if_pos rfl]
    rfl
  | frames + 2, .array items =>
    have hlength : (items.length : ℤ) ≠ -1 := by omega
    have hitems := readItems_encodeAll (frames + 1) items rest
    rw [Reply.encode, List.append_assoc, readResponse_tagged, readTagged_array,
      bind_ok (readInt_line _), if_neg hlength, Int.toNat_natCast, deliver]
    cases hdeliver : deliverAll (frames + 1) items with
    | value vs =>
      rw [hdeliver] at hitems
      rw [bind_ok hitems]
      rfl
    | failed e unread =>
      rw [hdeliver] at hitems
      rw [bind_error hitems]
      rfl

theorem readItems_encodeAll (frames : ℕ) (rs : List Reply) (rest : Bytes) :
    readItems (readResponse D frames) rs.length (encodeAll rs ++ rest) =
      (deliverAll frames rs).before rest := by
  match rs with
  | [] => rfl
  | r :: rs =>
    have hitem := readResponse_encode frames r (encodeAll rs ++ rest)
    have hitems := readItems_encodeAll frames rs rest
    rw [encodeAll, List.append_assoc, List.length_cons, readItems, deliverAll]
    cases hdeliver : deliver frames r with
    | failed e unread =>
      rw [hdeliver] at hitem
      rw [bind_error hitem]
      simp [Delivery.before]
    | value v =>
      rw [hdeliver] at hitem
      rw [bind_ok hitem]
      cases hrest : deliverAll frames rs with
      | failed e unread =>
        rw [hrest] at hitems
        rw [bind_error hitems]
        rfl
      | value vs =>
        rw [hrest] at hitems
        rw [bind_ok hitems]
        rfl

end

end Simulation

section Meaning

mutual

/-- What a reply means: its value, or the text of the first error in it. -/
def Reply.meaning : Reply → Option (Except String Value)
  | .simple line => (decode line.bytes).map fun t => .ok (.str t)
  | .error line => (decode line.bytes).map .error
  | .integer z => some (.ok (.int z.toInt))
  | .bulk data => (decode data).map fun t => .ok (.str t)
  | .nullBulk => some (.ok .none)
  | .nullArray => some (.ok .none)
  | .array items => (meaningAll items).map fun m => m.map .list

def meaningAll : List Reply → Option (Except String (List Value))
  | [] => some (.ok [])
  | r :: rs =>
    match r.meaning, meaningAll rs with
    | some (.ok v), some (.ok vs) => some (.ok (v :: vs))
    | some (.ok _), some (.error t) => some (.error t)
    | some (.error t), some _ => some (.error t)
    | _, _ => none

end

mutual

/-- The texts in a reply. -/
def Reply.texts : Reply → List Bytes
  | .simple line => [line.bytes]
  | .error line => [line.bytes]
  | .bulk data => [data]
  | .array items => textsAll items
  | _ => []

def textsAll : List Reply → List Bytes
  | [] => []
  | r :: rs => r.texts ++ textsAll rs

end

mutual

/-- How deep arrays with items are nested. -/
def Reply.depth : Reply → ℕ
  | .array items => depthAll items
  | _ => 0

def depthAll : List Reply → ℕ
  | [] => 0
  | r :: rs => max (r.depth + 1) (depthAll rs)

end

mutual

def Reply.hasError : Reply → Bool
  | .error _ => true
  | .array items => hasErrorAll items
  | _ => false

def hasErrorAll : List Reply → Bool
  | [] => false
  | r :: rs => r.hasError || hasErrorAll rs

end

mutual

/-- Nothing comes after an error. -/
def Reply.errorLast : Reply → Bool
  | .array items => errorLastAll items
  | _ => true

def errorLastAll : List Reply → Bool
  | [] => true
  | r :: rs => r.errorLast && (!r.hasError || rs.isEmpty) && errorLastAll rs

end

theorem map_decode_ne_none {α : Type} {text : Bytes} {f : String → α} :
    (decode text).map f ≠ none ↔ ∀ t ∈ [text], decode t ≠ none := by
  cases h : decode text <;> simp [h]

mutual

/-- A reply has a meaning when its texts can be decoded. -/
theorem meaning_ne_none (r : Reply) : r.meaning ≠ none ↔ ∀ t ∈ r.texts, decode t ≠ none := by
  match r with
  | .simple line => exact map_decode_ne_none
  | .error line => exact map_decode_ne_none
  | .integer z => simp [Reply.meaning, Reply.texts]
  | .bulk data => exact map_decode_ne_none
  | .nullBulk => simp [Reply.meaning, Reply.texts]
  | .nullArray => simp [Reply.meaning, Reply.texts]
  | .array items =>
    rw [Reply.texts, ← meaningAll_ne_none items, Reply.meaning]
    cases meaningAll items <;> simp

theorem meaningAll_ne_none (rs : List Reply) :
    meaningAll rs ≠ none ↔ ∀ t ∈ textsAll rs, decode t ≠ none := by
  match rs with
  | [] => simp [meaningAll, textsAll]
  | r :: rs =>
    rw [textsAll, List.forall_mem_append, ← meaning_ne_none r, ← meaningAll_ne_none rs, meaningAll]
    rcases r.meaning with _ | _ | _ <;> rcases meaningAll rs with _ | _ | _ <;> simp

end

mutual

theorem hasError_of_meaning (r : Reply) (m) (h : r.meaning = some m) :
    r.hasError = !m.isOk := by
  match r with
  | .simple line =>
    obtain ⟨t, -, rfl⟩ := Option.map_eq_some_iff.1 h
    rfl
  | .error line =>
    obtain ⟨t, -, rfl⟩ := Option.map_eq_some_iff.1 h
    rfl
  | .integer z => cases h; rfl
  | .bulk data =>
    obtain ⟨t, -, rfl⟩ := Option.map_eq_some_iff.1 h
    rfl
  | .nullBulk => cases h; rfl
  | .nullArray => cases h; rfl
  | .array items =>
    obtain ⟨ms, hms, rfl⟩ := Option.map_eq_some_iff.1 h
    rw [Reply.hasError, hasErrorAll_of_meaning items ms hms]
    cases ms <;> rfl

theorem hasErrorAll_of_meaning (rs : List Reply) (m) (h : meaningAll rs = some m) :
    hasErrorAll rs = !m.isOk := by
  match rs with
  | [] => cases h; rfl
  | r :: rs =>
    have hr := hasError_of_meaning r
    have hrs := hasErrorAll_of_meaning rs
    rw [meaningAll] at h
    rw [hasErrorAll]
    cases hm : r.meaning with
    | none => simp [hm] at h
    | some m' =>
      cases hms : meaningAll rs with
      | none => cases m' <;> simp [hm, hms] at h
      | some ms =>
        rw [hr m' hm, hrs ms hms]
        rw [hm, hms] at h
        cases m' <;> cases ms <;> cases h <;> rfl

end

mutual

theorem errorLast_of_none (r : Reply) (h : r.hasError = false) : r.errorLast = true := by
  match r with
  | .simple _ | .error _ | .integer _ | .bulk _ | .nullBulk | .nullArray => rfl
  | .array items => exact errorLastAll_of_none items h

theorem errorLastAll_of_none (rs : List Reply) (h : hasErrorAll rs = false) :
    errorLastAll rs = true := by
  match rs with
  | [] => rfl
  | r :: rs =>
    rw [hasErrorAll, Bool.or_eq_false_iff] at h
    rw [errorLastAll, errorLast_of_none r h.1, errorLastAll_of_none rs h.2, h.1]
    rfl

end

theorem deliverText_value {text : Bytes} {v : Value} :
    deliverText text (fun t => .value (.str t)) = .value v ↔
      (decode text).map (fun t => Except.ok (ε := String) (Value.str t)) = some (.ok v) := by
  cases h : decode text <;> simp [deliverText, h]

theorem encode_ne_nil (r : Reply) : r.encode ≠ [] := by
  obtain ⟨tag, -, line, body, hr⟩ := encode_tagged r
  simp [hr, tagged]

theorem encodeAll_eq_nil {rs : List Reply} : encodeAll rs = [] ↔ rs = [] := by
  cases rs with
  | nil => simp [encodeAll]
  | cons r rs => simp [encodeAll, encode_ne_nil]

mutual

/-- A reply is delivered as a value when it means one and is not nested too deep. -/
theorem deliver_eq_value (frames : ℕ) (r : Reply) (v : Value) :
    deliver frames r = .value v ↔ r.depth + 2 ≤ frames ∧ r.meaning = some (.ok v) := by
  match frames, r with
  | 0, r => simp [deliver]
  | 1, r => simp [deliver]
  | frames + 2, .simple line => simpa [deliver, Reply.depth, Reply.meaning] using deliverText_value
  | frames + 2, .error line =>
    cases h : decode line.bytes <;> simp [deliver, deliverText, Reply.meaning, h]
  | frames + 2, .integer z => simp [deliver, Reply.depth, Reply.meaning]
  | frames + 2, .bulk data => simpa [deliver, Reply.depth, Reply.meaning] using deliverText_value
  | frames + 2, .nullBulk => simp [deliver, Reply.depth, Reply.meaning]
  | frames + 2, .nullArray => simp [deliver, Reply.depth, Reply.meaning]
  | frames + 2, .array items =>
    have hitems := deliverAll_eq_value frames items
    rw [deliver, Reply.depth, Reply.meaning, Nat.add_le_add_iff_right]
    constructor
    · intro h
      cases hdeliver : deliverAll (frames + 1) items with
      | failed e unread => rw [hdeliver] at h; cases h
      | value vs =>
        obtain ⟨hdepth, hmeaning⟩ := (hitems vs).1 hdeliver
        rw [hdeliver] at h
        cases h
        exact ⟨hdepth, by rw [hmeaning]; rfl⟩
    · rintro ⟨hdepth, h⟩
      obtain ⟨ms, hmeaning, h⟩ := Option.map_eq_some_iff.1 h
      cases ms with
      | error t => cases h
      | ok vs =>
        cases h
        rw [(hitems vs).2 ⟨hdepth, hmeaning⟩]

theorem deliverAll_eq_value (frames : ℕ) (rs : List Reply) (vs : List Value) :
    deliverAll (frames + 1) rs = .value vs ↔
      depthAll rs ≤ frames ∧ meaningAll rs = some (.ok vs) := by
  match rs with
  | [] => simp [deliverAll, depthAll, meaningAll]
  | r :: rs =>
    have hitem := deliver_eq_value (frames + 1) r
    have hitems := deliverAll_eq_value frames rs
    rw [deliverAll, depthAll, meaningAll, max_le_iff]
    constructor
    · intro h
      cases hdeliver : deliver (frames + 1) r with
      | failed e unread => rw [hdeliver] at h; cases h
      | value w =>
        cases hrest : deliverAll (frames + 1) rs with
        | failed e unread => rw [hdeliver, hrest] at h; cases h
        | value ws =>
          obtain ⟨hdepth, hmeaning⟩ := (hitem w).1 hdeliver
          obtain ⟨hdepths, hmeanings⟩ := (hitems ws).1 hrest
          rw [hdeliver, hrest] at h
          cases h
          exact ⟨⟨Nat.le_of_succ_le_succ hdepth, hdepths⟩, by rw [hmeaning, hmeanings]⟩
    · rintro ⟨⟨hdepth, hdepths⟩, h⟩
      cases hmeaning : r.meaning with
      | none => simp [hmeaning] at h
      | some m =>
        cases hmeanings : meaningAll rs with
        | none => cases m <;> simp [hmeaning, hmeanings] at h
        | some ms =>
          rw [hmeaning, hmeanings] at h
          cases m with
          | error t => cases ms <;> cases h
          | ok w =>
            cases ms with
            | error t => cases h
            | ok ws =>
              cases h
              rw [(hitem w).2 ⟨Nat.succ_le_succ hdepth, hmeaning⟩, (hitems ws).2 ⟨hdepths, hmeanings⟩]

end

mutual

/-- An error reply is delivered with nothing left unread when nothing comes after it. -/
theorem deliver_eq_error (frames : ℕ) (r : Reply) (t : String) :
    deliver frames r = .failed (.redisProtocol t) [] ↔
      r.depth + 2 ≤ frames ∧ r.meaning = some (.error t) ∧ r.errorLast = true := by
  match frames, r with
  | 0, r => simp [deliver]
  | 1, r => simp [deliver]
  | frames + 2, .simple line =>
    cases h : decode line.bytes <;> simp [deliver, deliverText, Reply.meaning, h]
  | frames + 2, .error line =>
    cases h : decode line.bytes <;>
      simp [deliver, deliverText, Reply.meaning, Reply.depth, Reply.errorLast, h]
  | frames + 2, .integer z => simp [deliver, Reply.meaning]
  | frames + 2, .bulk data =>
    cases h : decode data <;> simp [deliver, deliverText, Reply.meaning, h]
  | frames + 2, .nullBulk => simp [deliver, Reply.meaning]
  | frames + 2, .nullArray => simp [deliver, Reply.meaning]
  | frames + 2, .array items =>
    rw [deliver, Reply.depth, Reply.meaning, Reply.errorLast, Nat.add_le_add_iff_right]
    have hmap : (meaningAll items).map (fun m => m.map Value.list) = some (.error t) ↔
        meaningAll items = some (.error t) := by
      rcases meaningAll items with _ | _ | _ <;> simp [Except.map]
    rw [hmap, ← deliverAll_eq_error frames items t]
    cases deliverAll (frames + 1) items <;> simp

theorem deliverAll_eq_error (frames : ℕ) (rs : List Reply) (t : String) :
    deliverAll (frames + 1) rs = .failed (.redisProtocol t) [] ↔
      depthAll rs ≤ frames ∧ meaningAll rs = some (.error t) ∧ errorLastAll rs = true := by
  match rs with
  | [] => simp [deliverAll, meaningAll]
  | r :: rs =>
    have hvalue := deliver_eq_value (frames + 1) r
    have herror := deliver_eq_error (frames + 1) r t
    have hvalues := deliverAll_eq_value frames rs
    have herrors := deliverAll_eq_error frames rs t
    rw [deliverAll, depthAll, meaningAll, errorLastAll, max_le_iff]
    constructor
    · intro h
      cases hdeliver : deliver (frames + 1) r with
      | failed e unread =>
        rw [hdeliver] at h
        simp only [Delivery.failed.injEq, List.append_eq_nil_iff, encodeAll_eq_nil] at h
        obtain ⟨rfl, rfl, rfl⟩ := h
        obtain ⟨hdepth, hmeaning, hlast⟩ := herror.1 hdeliver
        refine ⟨⟨Nat.le_of_succ_le_succ hdepth, Nat.zero_le _⟩, by rw [hmeaning]; rfl, ?_⟩
        simp [hlast, errorLastAll]
      | value w =>
        obtain ⟨hdepth, hmeaning⟩ := (hvalue w).1 hdeliver
        have hnone := hasError_of_meaning r _ hmeaning
        cases hrest : deliverAll (frames + 1) rs with
        | value ws => rw [hdeliver, hrest] at h; cases h
        | failed e unread =>
          rw [hdeliver, hrest] at h
          cases h
          obtain ⟨hdepths, hmeanings, hlast⟩ := herrors.1 hrest
          refine ⟨⟨Nat.le_of_succ_le_succ hdepth, hdepths⟩, by rw [hmeaning, hmeanings], ?_⟩
          rw [errorLast_of_none r hnone, hnone, hlast]
          rfl
    · rintro ⟨⟨hdepth, hdepths⟩, h, hlast⟩
      simp only [Bool.and_eq_true, Bool.or_eq_true, Bool.not_eq_true', List.isEmpty_iff] at hlast
      obtain ⟨⟨hfirst, hor⟩, hlast⟩ := hlast
      cases hmeaning : r.meaning with
      | none => simp [hmeaning] at h
      | some m =>
        cases m with
        | ok w =>
          have hmeanings : meaningAll rs = some (.error t) := by
            rw [hmeaning] at h
            rcases hms : meaningAll rs with _ | _ | _ <;> simp_all
          rw [(hvalue w).2 ⟨Nat.succ_le_succ hdepth, hmeaning⟩,
            herrors.2 ⟨hdepths, hmeanings, hlast⟩]
        | error t' =>
          have hnil : rs = [] := by
            rw [hasError_of_meaning r _ hmeaning] at hor
            exact hor.resolve_left (by simp [Except.isOk, Except.toBool])
          subst hnil
          rw [hmeaning] at h
          cases h
          rw [herror.2 ⟨Nat.succ_le_succ hdepth, hmeaning, hfirst⟩]
          rfl

end

end Meaning

end Ajenda.Resp
