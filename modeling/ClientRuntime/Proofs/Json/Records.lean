import ClientRuntime.Json.Record

/-!
Records as they are written. A reader answers to a value if it takes the tokens of the value and no
others. An object whose fields are answered in turn is read into what they make of the default, and
is refused for the first field that is.
-/

namespace ClientRuntime.Json

variable {α γ : Type} {read : Reader α} {v : Json} {result : Except JsonFault α}

/-- What a reader makes of a value, whatever comes after it. -/
def Answers (read : Reader α) (v : Json) (result : Except JsonFault α) : Prop :=
  ∀ rest, read (v.tokens ++ rest) = result.map (·, rest)

theorem Answers.ofValue (h : Answers read v result) : read.ofValue v = result := by
  have hread := h []
  rw [List.append_nil] at hread
  unfold Reader.ofValue
  rw [hread]
  cases result <;> rfl

theorem Answers.part (h : Answers read v result) (name : String) (set : α → γ → γ) :
    Answers (Part.of name read set).read v (result.map set) := by
  intro rest
  unfold Part.of
  dsimp only
  rw [h rest]
  cases result <;> rfl

/-- A number is read if the conversion takes it. -/
theorem answers_number (convert : Json → Option α) (n : JsonNumber) :
    Answers (readPlain convert) (.number n)
      ((convert (.number n)).elim (.error .mismatch) Except.ok) := by
  intro rest
  rw [tokens, List.singleton_append]
  unfold readPlain
  simp only [readValue, bind, Except.bind]
  cases convert (.number n) <;> rfl

theorem answers_flag (convert : Json → Option α) (b : Bool) :
    Answers (readPlain convert) (.flag b)
      ((convert (.flag b)).elim (.error .mismatch) Except.ok) := by
  intro rest
  rw [tokens, List.singleton_append]
  unfold readPlain
  simp only [readValue, bind, Except.bind]
  cases convert (.flag b) <;> rfl

/-- What the parts of a record make of the fields of an object, one after another. -/
inductive Answered (parts : List (Part γ)) :
    List String → γ → List (String × Json) → Except JsonFault γ → Prop where
  | nil {seen : List String} {record : γ} : Answered parts seen record [] (.ok record)
  | read {seen : List String} {record : γ} {k : String} {v : Json} {fields : List (String × Json)}
      {part : Part γ} {set : γ → γ} {outcome : Except JsonFault γ} :
      parts.find? (·.name = k) = some part → seen.contains k = false →
      Answers part.read v (.ok set) → Answered parts (k :: seen) (set record) fields outcome →
      Answered parts seen record ((k, v) :: fields) outcome
  | refused {seen : List String} {record : γ} {k : String} {v : Json}
      {fields : List (String × Json)} {part : Part γ} {fault : JsonFault} :
      parts.find? (·.name = k) = some part → seen.contains k = false →
      Answers part.read v (.error fault) →
      Answered parts seen record ((k, v) :: fields) (.error fault)

section Fields

variable {parts : List (Part γ)} {part : Part γ} {seen : List String} {record : γ} {k : String}
  {fields : List (String × Json)} {outcome : Except JsonFault γ} {answer : Except JsonFault (γ → γ)}

theorem readNamed_last (hpart : parts.find? (·.name = k) = some part)
    (hnew : seen.contains k = false) (hset : Answers part.read v answer) (fuel : Nat)
    (rest : List JsonToken) :
    readNamed parts (fuel + 1) seen record (tokensOfFields [(k, v)] ++ rest) =
      answer.map fun set => (set record, rest) := by
  rw [tokensOfFields, List.cons_append, List.cons_append, List.append_assoc, readNamed]
  simp only [hpart, hnew, Bool.and_false, Bool.false_eq_true, if_false, pure_bind]
  rw [hset]
  cases answer <;> rfl

theorem readNamed_more (hpart : parts.find? (·.name = k) = some part)
    (hnew : seen.contains k = false) (hset : Answers part.read v answer) (fuel : Nat)
    (f : String × Json) (rest : List JsonToken) :
    readNamed parts (fuel + 1) seen record (tokensOfFields ((k, v) :: f :: fields) ++ rest) =
      answer.bind fun set =>
        readNamed parts fuel (k :: seen) (set record) (tokensOfFields (f :: fields) ++ rest) := by
  rw [tokensOfFields, List.cons_append, List.cons_append, List.append_assoc, readNamed]
  simp only [hpart, hnew, Bool.and_false, Bool.false_eq_true, if_false, pure_bind]
  rw [hset]
  cases answer <;> rfl

/-- Fields are read up to the first one that is refused. -/
theorem Answered.readNamed_eq (h : Answered parts seen record fields outcome) :
    ∀ fuel rest, fields ≠ [] → fields.length ≤ fuel →
      readNamed parts fuel seen record (tokensOfFields fields ++ rest) =
        outcome.map (·, rest) := by
  induction h with
  | nil => exact fun _ _ h => absurd rfl h
  | @read seen record k v fields part set outcome hpart hnew hset hfields ih =>
    rintro (_ | fuel) rest - hlength
    · exact absurd hlength (Nat.not_succ_le_zero _)
    cases fields with
    | nil =>
      cases hfields
      rw [readNamed_last hpart hnew hset]
      rfl
    | cons f fs =>
      rw [readNamed_more hpart hnew hset]
      exact ih fuel rest (List.cons_ne_nil f fs) (Nat.le_of_succ_le_succ hlength)
  | @refused seen record k v fields part fault hpart hnew hset =>
    rintro (_ | fuel) rest - hlength
    · exact absurd hlength (Nat.not_succ_le_zero _)
    cases fields with
    | nil =>
      rw [readNamed_last hpart hnew hset]
      rfl
    | cons f fs =>
      rw [readNamed_more hpart hnew hset]
      rfl

theorem length_le_tokens (fields : List (String × Json)) :
    fields.length ≤ (tokensOfFields fields).length := by
  induction fields with
  | nil => exact Nat.zero_le _
  | cons f fs ih =>
    cases fs with
    | nil =>
      rw [tokensOfFields]
      simp only [List.length_cons, List.length_nil]
      omega
    | cons g gs =>
      rw [tokensOfFields]
      simp only [List.length_cons, List.length_append] at *
      omega

/-- An object is read into what its fields make of the default. -/
theorem Answered.answers {default : γ} (h : Answered parts [] default fields outcome) :
    Answers (readRecord parts default) (.object fields) outcome := by
  intro rest
  cases fields with
  | nil =>
    cases h
    rfl
  | cons f fs =>
    have hlength := length_le_tokens (f :: fs)
    have hread := h.readNamed_eq ((tokensOfFields (f :: fs) ++ rest).length + 1) rest
      (List.cons_ne_nil f fs) (by rw [List.length_append]; omega)
    rw [← hread]
    cases fs <;> rfl

end Fields

end ClientRuntime.Json
