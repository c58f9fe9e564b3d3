import UtxoLedger.Proofs.Json.Decoder
import UtxoLedger.Proofs.Json.Torn

/-!
# What decoders make of a remnant

A decoder refuses remnants when all that it reports of a torn text is that the text has ended. A
decoder of numbers cannot: the digits that are left are a number too. It tolerates remnants, which
is enough for what encloses it. In a list or a record there is something missing behind a torn
number, and everything in front of the tear is decoded as it was written.
-/
namespace UtxoLedger.Json

open Text

variable {ε α σ : Type}

def Refuses (decoder : Decoder ε α) (encode : α → Document) : Prop :=
  ∀ value reading, (encode value).Remnant reading → decoder reading = .error (.fault .truncated)

/-- A value may be found in a remnant, but nothing else is reported than the end of the text. -/
def Tolerates (decoder : Decoder ε α) (encode : α → Document) : Prop :=
  ∀ value reading, (encode value).Remnant reading →
    ∀ problem, decoder reading = .error problem → problem = .fault .truncated

section Decoders

variable {decoder : Decoder ε α} {encode : α → Document}

theorem Refuses.tolerates (refuses : Refuses decoder encode) : Tolerates decoder encode := by
  intro value reading remnant problem failed
  rw [refuses value reading remnant] at failed
  exact (Except.error.inj failed).symm

theorem Refuses.run (refuses : Refuses decoder encode) {layout : Layout} {value : α}
    {text : List Char} (torn : Torn text ((encode value).write layout).toList) :
    decoder.run text = .error (.fault .truncated) := by
  obtain ⟨reading, read, remnant⟩ := ofText_torn torn
  rw [Decoder.run, read]
  dsimp only
  rw [refuses value reading remnant]
  rfl

theorem string_remnant {content : List Char} {reading : Reading}
    (remnant : (Document.string content).Remnant reading) (read : List Char → Except ε α) :
    Decoder.string read reading = .error (.fault .truncated) := by
  cases remnant with
  | start => rfl
  | string _ breaks => rw [Decoder.string, breaks]

/-- A number that is found in a remnant is smaller by at least a digit. -/
theorem natural_remnant {limit n : Nat} (below : n < limit) {reading : Reading}
    (remnant : (Document.number n).Remnant reading) :
    (Decoder.natural limit : Decoder ε Nat) reading = .error (.fault .truncated) ∨
      ∃ fewer, 0 < fewer ∧ 10 * fewer ≤ n ∧
        (Decoder.natural limit : Decoder ε Nat) reading = .ok fewer := by
  cases remnant with
  | start => exact .inl rfl
  | @number _ fewer positive shorter =>
    exact .inr ⟨fewer, positive, shorter, natural_reading (by omega)⟩

theorem tolerates_natural {limit : Nat} {size : α → Nat} (below : ∀ value, size value < limit)
    (make : Nat → α) :
    Tolerates (fun reading => ((Decoder.natural limit : Decoder ε Nat) reading).map make)
      fun value => .number (size value) := by
  intro value reading remnant problem failed
  dsimp only at failed
  rcases natural_remnant (below value) remnant with truncated | ⟨fewer, -, -, found⟩
  · rw [truncated] at failed
    exact (Except.error.inj failed).symm
  · rw [found] at failed
    cases failed

/-- A single digit cannot be torn. -/
theorem refuses_digit {limit : Nat} {size : α → Nat} (below : ∀ value, size value < limit)
    (single : ∀ value, size value < 10) (check : Nat → Except ε α) :
    Refuses ((Decoder.natural limit).refine check) fun value => .number (size value) := by
  intro value reading remnant
  rw [Decoder.refine]
  rcases natural_remnant (below value) remnant with truncated | ⟨fewer, positive, shorter, -⟩
  · rw [truncated]
    rfl
  · have digit := single value
    omega

/-- The induction is on the values; what is torn is the first of them or stands behind it. -/
theorem Tolerates.list (tolerates : Tolerates decoder encode) (reads : Reads decoder encode) :
    Refuses (.list decoder) fun values => .array (.ofList (values.map encode)) := by
  intro values reading remnant
  cases remnant with
  | start => rfl
  | @array _ found remnant =>
    change Decoder.items decoder found = _
    induction values generalizing found with
    | nil =>
      cases remnant with
      | start => rfl
    | cons value rest ih =>
      rw [List.map_cons, Documents.ofList] at remnant
      cases remnant with
      | start => rfl
      | @inside _ reading _ remnant =>
        rw [Decoder.items]
        cases decoded : decoder reading with
        | error problem =>
          rw [tolerates value reading remnant problem decoded]
          rfl
        | ok torn => rfl
      | behind _ remnant =>
        rw [Decoder.items, reads value]
        change (Decoder.items decoder _ >>= _) = _
        rw [ih remnant]
        rfl

end Decoders

section Record

variable {fields : List (Field ε σ)} {partly : σ}

/-- With these members still to come, the text is found to have ended. -/
def RefusesMembers (fields : List (Field ε σ)) (partly : σ) (entries : List (String × Document)) :
    Prop :=
  ∀ found, (Entries.ofList entries).Remnant found →
    Decoder.members fields found partly = .error (.fault .truncated)

theorem refuses_done : RefusesMembers fields partly [] := by
  intro found remnant
  cases remnant with
  | start => rfl

theorem refuses_next {name : String} {decoder : Decoder ε α} {get : σ → Option α}
    {set : σ → α → σ} {encode : α → Document} {value : α} {rest : List (String × Document)}
    (reads : Reads decoder encode) (tolerates : Tolerates decoder encode)
    (known : (fields.find? fun field => field.name.toList = name.toList) =
      some (.of name decoder get set))
    (fresh : get partly = none) (others : RefusesMembers fields (set partly value) rest) :
    RefusesMembers fields partly ((name, encode value) :: rest) := by
  intro found remnant
  rw [Entries.ofList] at remnant
  cases remnant with
  | start => rfl
  | key _ _ _ breaks =>
    rw [Decoder.members, breaks]
    rfl
  | @inside _ reading _ _ remnant =>
    rw [members_known known fresh]
    cases decoded : decoder reading with
    | error problem =>
      rw [tolerates value reading remnant problem decoded]
      rfl
    | ok torn => rfl
  | behind _ _ remnant =>
    rw [members_known known fresh, reads value]
    exact others _ remnant

theorem record_of_refuses {start : σ} {finish : σ → Option α} {entries : List (String × Document)}
    (all : RefusesMembers fields start entries) {reading : Reading}
    (remnant : (Document.object (.ofList entries)).Remnant reading) :
    Decoder.record fields start finish reading = .error (.fault .truncated) := by
  cases remnant with
  | start => rfl
  | object remnant =>
    rw [Decoder.record]
    dsimp only
    rw [all _ remnant]
    rfl

end Record

end UtxoLedger.Json
