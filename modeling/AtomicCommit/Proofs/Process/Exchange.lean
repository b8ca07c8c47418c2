import AtomicCommit.Proofs.Process.Node
import AtomicCommit.Proofs.Program.Contract

/-!
# What a program has asked and been told

A program is known by its exchanges: what it asks, what it is told, and how it ends after that. To
say how a part of an operation behaves, whatever its surroundings do, is to say which questions it
may ask after which exchanges, and what is so when it ends.

## Main definitions

* `Exchange`: a question with its answer.
* `stored`: the entries that exchanges have stored.
* `Role.hearing`: the contract of a program that is known by its exchanges.
* `follow`: the exchanges of a program that is answered in a given way.
-/

namespace AtomicCommit

/-- A question with its answer. -/
structure Exchange (R : Role) where
  /-- What has been asked. -/
  question : R.Request
  /-- What has been told. -/
  answer : R.Answer question

/-- The entry that an exchange has stored. -/
def Exchange.stored? {R : Role} : Exchange R → Option Entry
  | ⟨.inl (.append e), .ok _⟩ => some e
  | _ => none

/-- The entries that exchanges have stored, in order. -/
def stored {R : Role} (said : List (Exchange R)) : List Entry :=
  said.filterMap Exchange.stored?

/-- The contract of a program that is known by its exchanges: what it may ask after some, and what
it may then be told. Its memory may be changed by others whenever it asks. -/
def Role.hearing (R : Role) (asks : List (Exchange R) → R.Request → Prop)
    (tells : List (Exchange R) → (q : R.Request) → R.Answer q → Prop) :
    Contract (R.interface.sharing R.Memory) (List (Exchange R)) where
  asks said q := asks said q.1
  answers said q a said' := tells said q.1 a.1 ∧ said' = said ++ [⟨q.1, a.1⟩]

section Stored

variable {R : Role} {said : List (Exchange R)}

@[simp] theorem stored_nil : stored ([] : List (Exchange R)) = [] := rfl

@[simp] theorem stored_append (said said' : List (Exchange R)) :
    stored (said ++ said') = stored said ++ stored said' :=
  List.filterMap_append

@[simp] theorem stored_of_ok (e : Entry) (u : Unit) :
    stored [(⟨.inl (.append e), (.ok u : Except LogError Unit)⟩ : Exchange R)] = [e] := rfl

@[simp] theorem stored_of_error (e : Entry) (failure : LogError) :
    stored [(⟨.inl (.append e), (.error failure : Except LogError Unit)⟩ : Exchange R)] = [] :=
  rfl

/-- Other questions store nothing. -/
theorem stored_of_not_append {q : R.Request} (stores : R.stores q = false) (a : R.Answer q) :
    stored [(⟨q, a⟩ : Exchange R)] = [] := by
  rcases q with q | q
  · cases q with
    | append e => cases stores
    | _ => rfl
  · rfl

theorem stored_concat_of_not_append {q : R.Request} (stores : R.stores q = false)
    (a : R.Answer q) : stored (said ++ [⟨q, a⟩]) = stored said := by
  rw [stored_append, stored_of_not_append stores, List.append_nil]

end Stored

section Hearing

variable {R : Role} {asks : List (Exchange R) → R.Request → Prop}
  {tells : List (Exchange R) → (q : R.Request) → R.Answer q → Prop} {said : List (Exchange R)}
  {memory : R.Memory} {ε : Type}

/-- A question. -/
theorem meets_ask_hearing {q : R.Request} {ok : R.Answer q → R.Memory → List (Exchange R) → Prop}
    {err : ε → R.Memory → List (Exchange R) → Prop} (may : asks said q)
    (told : ∀ a memory, tells said q a → ok a memory (said ++ [⟨q, a⟩])) :
    (Action.ask q : Action R.interface R.Memory ε _).Meets (R.hearing asks tells) ok err memory
      said := by
  rw [Action.meets_ask]
  refine ⟨may, ?_⟩
  rintro a memory' _ ⟨heard, rfl⟩
  exact told a memory' heard

/-- An entry to be stored. -/
theorem meets_append_hearing {e : Entry} {ok : Unit → R.Memory → List (Exchange R) → Prop}
    {err : LogError → R.Memory → List (Exchange R) → Prop} (may : asks said (.inl (.append e)))
    (done : ∀ memory, tells said (.inl (.append e)) (.ok () : Except LogError Unit) →
      ok () memory (said ++ [⟨.inl (.append e), (.ok () : Except LogError Unit)⟩]))
    (missed : ∀ failure memory,
      tells said (.inl (.append e)) (.error failure : Except LogError Unit) →
      err failure memory
        (said ++ [⟨.inl (.append e), (.error failure : Except LogError Unit)⟩])) :
    (Host.append e : Action R.interface R.Memory LogError Unit).Meets (R.hearing asks tells) ok err
      memory said := by
  rw [Host.meets_append]
  refine ⟨may, ?_⟩
  rintro a memory' _ ⟨heard, rfl⟩
  refine ⟨?_, ?_⟩
  · rintro ⟨⟩ rfl
    exact done memory' heard
  · rintro failure rfl
    exact missed failure memory' heard

/-- What a program asks and is told when it is answered in this way, as far as it is, and how it
ends if it does. -/
def follow {α : Type} (answers : (q : R.Request) → Option (R.Answer q)) :
    Program (R.interface.sharing R.Memory) α → List (Exchange R) × Option α
  | .done result => ([], some result)
  | .ask (q, memory) next =>
    match answers q with
    | none => ([], none)
    | some a =>
      let (rest, result) := follow answers (next (a, memory))
      (⟨q, a⟩ :: rest, result)

/-- What a contract promises of the end of a program is so once the program has been followed to its
end. -/
theorem post_of_follow {α : Type} {post : α → List (Exchange R) → Prop}
    {answers : (q : R.Request) → Option (R.Answer q)}
    {p : Program (R.interface.sharing R.Memory) α} {result : α}
    (h : p.Meets (R.hearing asks tells) post said)
    (heard : ∀ said q a, answers q = some a → tells said q a)
    (ends : (follow answers p).2 = some result) : post result (said ++ (follow answers p).1) := by
  induction p generalizing said with
  | done a =>
    cases ends
    rwa [follow, List.append_nil]
  | ask q next ih =>
    obtain ⟨q, memory⟩ := q
    rw [follow] at ends ⊢
    cases answered : answers q with
    | none =>
      rw [answered] at ends
      cases ends
    | some a =>
      simp only [answered] at ends ⊢
      have rest := h.2 (a, memory) (said ++ [⟨q, a⟩]) ⟨heard said q a answered, rfl⟩
      simpa using ih (a, memory) rest ends

end Hearing

end AtomicCommit
