import UtxoLedger.Proofs.Json.Decoder

/-!
# Documents with members left out

Any members of a document can be left out, at any depth. A record is then read from the members
that stay, each with what is left of it, and of the others it is given nothing.
-/
namespace UtxoLedger.Json

/-- Whether a member stays, by the names of the members around it and its own. -/
abbrev Choice := List String → Bool

/-- The choice among the members of a member. -/
def Choice.within (kept : Choice) (name : String) : Choice :=
  fun path => kept (name :: path)

mutual

/-- What is left of a document. Where a member is left out, so is all that is in it. -/
def Document.keep (kept : Choice) : Document → Document
  | .number value => .number value
  | .string text => .string text
  | .array items => .array items
  | .object members => .object (members.keep kept)

def Entries.keep (kept : Choice) : Entries → Entries
  | .empty => .empty
  | .cons key value rest =>
    if kept [String.ofList key] then
      .cons key (value.keep (kept.within (String.ofList key))) (rest.keep kept)
    else rest.keep kept

end

/-- The members that stay, in their order. -/
def Choice.entries (kept : Choice) (entries : List (String × Document)) :
    List (String × Document) :=
  (entries.filter fun entry => kept [entry.1]).map fun entry =>
    (entry.1, entry.2.keep (kept.within entry.1))

theorem Entries.keep_ofList (kept : Choice) (entries : List (String × Document)) :
    (Entries.ofList entries).keep kept = .ofList (kept.entries entries) := by
  induction entries with
  | nil => rfl
  | cons entry rest ih =>
    obtain ⟨name, value⟩ := entry
    rw [Entries.ofList, Entries.keep, ih, String.ofList_toList]
    by_cases stays : kept [name] = true
    · simp [Choice.entries, stays, Entries.ofList]
    · simp [Choice.entries, stays]

variable {ε α σ : Type}

/-- What is left of what was written for a value is decoded to a view of that value. -/
def ReadsKept (decoder : Decoder ε α) (encode : α → Document) (view : Choice → α → α) : Prop :=
  ∀ kept value, decoder ((encode value).keep kept).reading = .ok (view kept value)

theorem ReadsKept.run {decoder : Decoder ε α} {encode : α → Document} {view : Choice → α → α}
    (reads : ReadsKept decoder encode view) (layout : Layout) (kept : Choice) (value : α) :
    decoder.run (((encode value).keep kept).write layout).toList = .ok (view kept value) :=
  (run_write decoder layout _).trans (reads kept value)

section Record

variable {fields : List (Field ε σ)} {partly final : σ} {kept : Choice}

theorem members_kept {name : String} {decoder : Decoder ε α} {get : σ → Option α}
    {set : σ → α → σ} {encode : α → Document} {view : Choice → α → α} {value : α}
    {rest : List (String × Document)} (reads : ReadsKept decoder encode view)
    (known : (fields.find? fun field => field.name.toList = name.toList) =
      some (.of name decoder get set))
    (fresh : get partly = none)
    (others : Decoder.members fields (Entries.ofList (kept.entries rest)).reading
      (if kept [name] then set partly (view (kept.within name) value) else partly) = .ok final) :
    Decoder.members fields (Entries.ofList (kept.entries ((name, encode value) :: rest))).reading
      partly = .ok final := by
  by_cases stays : kept [name] = true
  · -- It is met first, and what is left of it is decoded.
    have first : kept.entries ((name, encode value) :: rest) =
        (name, (encode value).keep (kept.within name)) :: kept.entries rest := by
      simp [Choice.entries, stays]
    rw [if_pos stays] at others
    rw [first, Entries.ofList, Entries.reading, members_known known fresh, reads]
    exact others
  · -- It is not met at all, and the record stays as it is.
    have skipped : kept.entries ((name, encode value) :: rest) = kept.entries rest := by
      simp [Choice.entries, stays]
    rw [if_neg stays] at others
    rw [skipped]
    exact others

theorem record_kept {start : σ} {finish : σ → Option α} {entries : List (String × Document)}
    {value : α}
    (all : Decoder.members fields (Entries.ofList (kept.entries entries)).reading start = .ok final)
    (finished : finish final = some value) :
    Decoder.record fields start finish ((Document.object (.ofList entries)).keep kept).reading =
      .ok value := by
  rw [Document.keep, Entries.keep_ofList]
  exact record_of_members all finished

end Record

end UtxoLedger.Json
