import StackLang.Proofs.ErrorOrder

namespace StackLang

namespace Parser

open Cursor

variable {α β : Type} {c d : Cursor}

/-- Runs `p` and goes on also where it fails. -/
def attempt (p : Parser α) : Parser (Except SyntaxError α) := fun c =>
  match p c with
  | .ok a d => .ok (.ok a) d
  | .error e d => .ok (.error e) d

/-- Gives the place where it is. -/
def look : Parser Cursor := fun c => .ok c c

/-- A parser taken apart into its steps: it looks where it is, passes a token, opens a level around
another script, or goes on after a failure. -/
inductive Script : Type → Type 1 where
  | pure {α : Type} (a : α) : Script α
  | fail {α : Type} (cause : SyntaxCause) : Script α
  | look : Script Cursor
  | advance : Script Unit
  | nested {α : Type} (s : Script α) : Script α
  | attempt {α : Type} (s : Script α) : Script (Except SyntaxError α)
  | bind {α β : Type} (s : Script α) (f : α → Script β) : Script β

namespace Script

/-- What a script does as a parser. -/
def run {α : Type} : Script α → Parser α
  | .pure a => Pure.pure a
  | .fail cause => Parser.fail cause
  | .look => Parser.look
  | .advance => Parser.advance
  | .nested s => Parser.nested s.run
  | .attempt s => Parser.attempt s.run
  | .bind s f => s.run >>= fun a => (f a).run

/-- Every cursor that a script meets is a place further on, with at least as many levels open as
at the start and no more than the limit allows. -/
structure Within (c d : Cursor) : Prop where
  moves : ∃ ts, c.Moves ts { d with depth := c.depth }
  opened : c.depth ≤ d.depth
  limited : d.depth ≤ c.limit

/-- What is met one level deeper is met here too. -/
theorem Within.of_deeper (h : Within c.deeper d) : Within c d := by
  obtain ⟨⟨ts, hts⟩, hopened, hlimited⟩ := h
  obtain ⟨e, he, hm⟩ := hts.of_deeper
  have hopen : c.depth + 1 ≤ d.depth := hopened
  refine ⟨⟨ts, ?_⟩, by omega, hlimited⟩
  -- The cursor on the level above differs from the one met in its depth only.
  have hsame : { d with depth := c.depth } = e := by
    calc
      { d with depth := c.depth } = { e.deeper with depth := c.depth } :=
        congrArg (fun b : Cursor => { b with depth := c.depth }) he
      _ = e := by rw [← hm.frame.1]; rfl
  rwa [hsame]

end Script

/-- What a parser can be asked for. -/
inductive Call where
  | statement | expression | statements
deriving DecidableEq

/-- What a call that does not fail gives back. -/
inductive Reply where
  | tree (t : Tree)
  | outcome (o : Outcome)

def Call.run : Call → Parser Reply
  | statement => .tree <$> fun c => c.statement
  | expression => .tree <$> fun c => c.expression
  | statements => fun c => .ok (.outcome c.statements.1) c.statements.2

/-- The cursor of a parser after some calls, the failed ones included. -/
def after (limit : Nat) (tokens : List Token) (calls : List Call) : Cursor :=
  calls.foldl (fun c call => stop (call.run c)) (.ofTokens limit tokens)

section Supplied

variable {tokens : List Token} {t : Token} {i : Nat}

end Supplied

end Parser

end StackLang
