import UtxoLedger.Json.Decoder
import UtxoLedger.Proofs.Json.Reading

/-!
# Decoders undo writers

A decoder reads a writer when it takes what the writer wrote back to the value it was written
for. This is a matter of readings alone; from them it goes over to texts in every layout. Lists
are read when their items are, and a record is read member by member.
-/
namespace UtxoLedger.Json

variable {ε α σ : Type}

/-- What is written for a value is decoded to that value. -/
def Reads (decoder : Decoder ε α) (encode : α → Document) : Prop :=
  ∀ value, decoder (encode value).reading = .ok value

/-- A text that was written has nothing behind its document. -/
theorem run_write (decoder : Decoder ε α) (layout : Layout) (document : Document) :
    decoder.run (document.write layout).toList = decoder document.reading := by
  rw [Decoder.run, ofText_write]
  dsimp only
  cases decoder document.reading <;> rfl

theorem Reads.run {decoder : Decoder ε α} {encode : α → Document} (reads : Reads decoder encode)
    (layout : Layout) (value : α) :
    decoder.run ((encode value).write layout).toList = .ok value :=
  (run_write decoder layout (encode value)).trans (reads value)

@[simp] theorem natural_reading {limit n : Nat} (below : n < limit) :
    (Decoder.natural limit : Decoder ε Nat) (Document.number n).reading = .ok n := by
  rw [Document.reading, Decoder.natural, Numeral.value_ofNat,
    if_pos ⟨Numeral.isNatural_ofNat n, below⟩]

@[simp] theorem string_reading (read : List Char → Except ε α) (text : List Char) :
    Decoder.string read (Document.string text).reading = (read text).mapError .content := by
  rw [Document.reading, Decoder.string, Literal.text_ofText]

theorem Reads.list {decoder : Decoder ε α} {encode : α → Document} (reads : Reads decoder encode) :
    Reads (.list decoder) fun values => .array (.ofList (values.map encode)) := by
  intro values
  change Decoder.items decoder (Documents.ofList (values.map encode)).reading = .ok values
  induction values with
  | nil => rfl
  | cons value rest ih =>
    rw [List.map_cons, Documents.ofList, Documents.reading, Decoder.items, reads value]
    change (Decoder.items decoder _ >>= _) = _
    rw [ih]
    rfl

section Record

variable {fields : List (Field ε σ)} {partly final : σ}

theorem members_done : Decoder.members fields (Entries.ofList []).reading partly = .ok partly :=
  rfl

/-- A member that is known and was not given before is decoded, and then those behind it are. -/
theorem members_known {name : String} {decoder : Decoder ε α} {get : σ → Option α}
    {set : σ → α → σ}
    (known : (fields.find? fun field => field.name.toList = name.toList) =
      some (.of name decoder get set))
    (fresh : get partly = none) (reading : Reading) (rest : Members) :
    Decoder.members fields (.member (.ofText name.toList) reading rest) partly =
      decoder reading >>= fun value => Decoder.members fields rest (set partly value) := by
  have absent : ¬(get partly).isSome = true := by simp [fresh]
  rw [Decoder.members, Literal.text_ofText]
  dsimp only [Except.mapError, bind, Except.bind]
  rw [known]
  dsimp only [Field.of]
  rw [if_neg absent]
  cases decoder reading <;> rfl

theorem members_next {name : String} {decoder : Decoder ε α} {get : σ → Option α}
    {set : σ → α → σ} {encode : α → Document} {value : α} {rest : List (String × Document)}
    (reads : Reads decoder encode)
    (known : (fields.find? fun field => field.name.toList = name.toList) =
      some (.of name decoder get set))
    (fresh : get partly = none)
    (others : Decoder.members fields (Entries.ofList rest).reading (set partly value) = .ok final) :
    Decoder.members fields (Entries.ofList ((name, encode value) :: rest)).reading partly =
      .ok final := by
  rw [Entries.ofList, Entries.reading, members_known known fresh, reads value]
  exact others

theorem record_of_members {start : σ} {finish : σ → Option α} {entries : List (String × Document)}
    {value : α} (all : Decoder.members fields (Entries.ofList entries).reading start = .ok final)
    (finished : finish final = some value) :
    Decoder.record fields start finish (Document.object (.ofList entries)).reading = .ok value := by
  rw [Document.reading, Decoder.record]
  refine Except.bind_ok_iff.mpr ⟨final, all, ?_⟩
  dsimp only
  rw [finished]
  rfl

end Record

end UtxoLedger.Json
