import EntryProbe.Go.Grammar.Statements

/-!
# Recognizing phrases

The rules of the grammar, tied together. `EntryProbe.Go.recognize` reads a phrase
from the front of a sequence of tokens. It descends at most as deep as the length
of the sequence allows: between two tokens there are never more than a few phrases
that start at the same place.
-/

namespace EntryProbe.Go

open Grammar in
/-- The rule of each phrase. -/
def rule (self : Rules) : Rules
  | _, .type lineEnds => type self lineEnds
  | _, .element lineEnds => element self lineEnds
  | _, .typeArguments => typeArguments self
  | _, .typeParameters => typeParameters self
  | _, .parameters => parameters self
  | _, .moreParameters run lone => moreParameters self run lone
  | _, .parameter => parameter self
  | _, .arrayOrArguments lineEnds => arrayOrArguments self lineEnds
  | _, .result lineEnds => result self lineEnds
  | _, .fields => fields self
  | _, .methods => methods self
  | _, .term context => term self context
  | _, .termTail context left => termTail self context left
  | _, .unary context => unary self context
  | _, .suffixes context operand => suffixes self context operand
  | _, .expression context => expression self context
  | _, .expressions context => expressions self context
  | _, .bracketed => bracketed self
  | _, .moreElements types => moreElements self types
  | _, .arguments => arguments self
  | _, .moreArguments => moreArguments self
  | _, .literal => literal self
  | _, .literalElement => literalElement self
  | _, .block => block self
  | _, .statements => statements self
  | _, .listStatement => listStatement self
  | _, .statement => statement self
  | _, .simple place => simple self place
  | _, .conditional => conditional self
  | _, .valueCases => valueCases self
  | _, .typeCases => typeCases self
  | _, .caseTypes => caseTypes self
  | _, .communications => communications self
  | _, .names lineEnds => names self lineEnds
  | _, .constantSpec => constantSpec self
  | _, .variableSpec => variableSpec self
  | _, .typeSpec => typeSpec self
  | _, .constantGroup => constantGroup self
  | _, .variableGroup => variableGroup self
  | _, .typeGroup => typeGroup self

/-- Reads a phrase with at most `depth` phrases inside one another. -/
def recognizeWithin : (depth : Nat) → Rules
  | 0, _, _ => Reader.halt
  | depth + 1, α, phrase => rule (recognizeWithin depth) α phrase

/-- The number of phrases that may start between two tokens. -/
def phrasesPerToken : Nat := 16

/-- Reads a phrase from the front of a sequence of tokens. -/
def recognize {α : Type} (phrase : Phrase α) : Reader α := fun tokens =>
  recognizeWithin (phrasesPerToken * (tokens.length + 1)) α phrase tokens

end EntryProbe.Go
