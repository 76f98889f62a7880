import Mathlib.Logic.Function.Basic
import ProcCheck.Proofs.Token.Adjacent

/-!
# Renaming identifiers

A renaming takes identifiers to identifiers, and no two of them to one. It replaces the spellings of
identifier tokens and of nothing else: reserved words, literals and operators stay. In a text it
replaces the identifiers among the pieces that the text splits into, which neither makes the text
compound nor stops it from being so.
-/

namespace ProcCheck

/-- An injective map from identifiers to identifiers. -/
structure Renaming where
  map : Text → Text
  spells {name : Text} (isName : TokenKind.identifier.spells name) :
    TokenKind.identifier.spells (map name)
  injective {name other : Text} (isName : TokenKind.identifier.spells name)
    (isOther : TokenKind.identifier.spells other) (same : map name = map other) : name = other

namespace Renaming

variable (r : Renaming)

/-- What a name becomes; what is no identifier stays. -/
def name (name : Text) : Text := if TokenKind.identifier.spells name then r.map name else name

theorem name_of_spells {name : Text} (isName : TokenKind.identifier.spells name) :
    r.name name = r.map name := if_pos isName

theorem name_of_not_spells {name : Text} (other : ¬ TokenKind.identifier.spells name) :
    r.name name = name := if_neg other

theorem spells_name (name : Text) :
    TokenKind.identifier.spells (r.name name) = TokenKind.identifier.spells name := by
  by_cases isName : TokenKind.identifier.spells name
  · rw [r.name_of_spells isName, r.spells isName, isName]
  · rw [r.name_of_not_spells isName]

/-- No two names become one, be they identifiers or not. -/
theorem name_injective : Function.Injective r.name := by
  intro name other same
  have kinds := congrArg (TokenKind.identifier.spells ·) same
  simp only [spells_name] at kinds
  by_cases isName : TokenKind.identifier.spells name
  · have isOther := kinds.symm.trans isName
    rw [r.name_of_spells isName, r.name_of_spells isOther] at same
    exact r.injective isName isOther same
  · have noOther : ¬ TokenKind.identifier.spells other := by rwa [← kinds]
    rwa [r.name_of_not_spells isName, r.name_of_not_spells noOther] at same

theorem name_nil : r.name [] = [] := rfl

/-! ## Tokens -/

/-- What a spelling of a kind becomes. -/
def spelling (kind : TokenKind) (text : Text) : Text :=
  if kind = .identifier then r.map text else text

theorem spelling_of_ne {kind : TokenKind} (other : kind ≠ .identifier) (text : Text) :
    r.spelling kind text = text := if_neg other

/-- The lexeme with its spelling replaced. -/
def lexeme (l : Lexeme) : Lexeme := ⟨l.kind, r.spelling l.kind l.spelling⟩

/-- The token with its spelling replaced, where it is an identifier. -/
def token (t : Token) : Token := { t with spelling := r.spelling t.kind t.spelling }

@[simp] theorem kind_token (t : Token) : (r.token t).kind = t.kind := rfl

@[simp] theorem spelling_lexeme (t : Token) :
    (r.lexeme t.lexeme).spelling = (r.token t).spelling := rfl

/-- A token that can name something is spelt by what its name becomes. -/
theorem spelling_callable {t : Token} (spelt : t.isSpelt) (callable : t.kind.isCallable) :
    (r.token t).spelling = r.name t.spelling := by
  rcases Token.callable_cases spelt callable with ⟨kind, isName⟩ | ⟨kind, reserved⟩
  · rw [r.name_of_spells isName]
    exact if_pos kind
  · obtain same := (TokenKind.spells_fixed rfl).1 reserved
    have other : ¬ TokenKind.identifier.spells t.spelling := by
      rw [same]
      decide
    rw [r.name_of_not_spells other]
    exact r.spelling_of_ne (by rw [kind]; decide) _

end Renaming

/-! ## Texts -/

/-- The text with its identifiers replaced, up to the first unit that no piece starts with. -/
def Text.renamed (r : Renaming) (text : Text) : Text :=
  match text with
  | [] => []
  | u :: rest =>
    match Piece.atHead u rest with
    | .error _ => u :: rest
    | .ok piece =>
      let spelling := u :: rest.take piece.more
      (piece.kind?.elim spelling (r.spelling · spelling)) ++ renamed r (rest.drop piece.more)
termination_by text.length
decreasing_by simp only [List.length_drop, List.length_cons]; omega

namespace Text

variable (r : Renaming)

@[simp] theorem renamed_nil : renamed r [] = [] := by
  rw [renamed.eq_def]

/-- A text that starts with a piece is the piece, replaced if it is an identifier, and the rest. -/
theorem renamed_cons {u : CodeUnit} {rest : Text} {piece : Piece}
    (found : Piece.atHead u rest = .ok piece) : renamed r (u :: rest) =
      piece.kind?.elim (u :: rest.take piece.more) (r.spelling · (u :: rest.take piece.more)) ++
        renamed r (rest.drop piece.more) := by
  rw [renamed.eq_def]
  simp only [found]

/-- No identifier holds a sign that makes a text compound. -/
theorem isCompound_of_spells {t : Text} (isName : TokenKind.identifier.spells t) :
    t.isCompound = false := by
  have signs : compoundSigns.any CodeUnit.isWordUnit = false := by decide
  have units := wordUnits_of_isWord (TokenKind.isWord_of_spells isName)
  rw [isCompound, List.any_eq_false]
  intro u member isSign
  exact List.any_eq_false.1 signs u (List.contains_iff_mem.1 isSign) (units u member)

/-- Renaming makes no text compound, nor does it stop one from being so. -/
theorem isCompound_renamed (t : Text) : (renamed r t).isCompound = t.isCompound := by
  fun_induction renamed r t with
  | case1 => rfl
  | case2 => rfl
  | case3 u rest piece found spelling ih =>
    obtain ⟨taken, after, same, length, stands⟩ := Piece.atHead_foundAt found
    have cut : spelling = u :: taken := by
      rw [← @List.take_left _ taken after, ← same, ← length]
    have piece' : isCompound (piece.kind?.elim spelling (r.spelling · spelling)) =
        isCompound spelling := by
      cases kind : piece.kind? with
      | none => rfl
      | some kind' =>
        by_cases isName : kind' = .identifier
        · rw [kind, isName, ← cut] at stands
          have image : r.spelling kind' spelling = r.map spelling := if_pos isName
          rw [Option.elim_some, image, isCompound_of_spells (r.spells stands.2.1),
            isCompound_of_spells stands.2.1]
        · rw [Option.elim_some, r.spelling_of_ne isName]
    have whole : u :: rest = spelling ++ rest.drop piece.more := by
      rw [List.cons_append, List.take_append_drop]
    rw [whole, isCompound, List.any_append, isCompound, List.any_append]
    exact congr (congrArg _ piece') ih

/-- Where lexemes stand side by side, renaming their text renames each of them. -/
theorem renamed_joined {ls : List Lexeme} (adjacent : Lexeme.Adjacent [] ls) :
    renamed r (Lexeme.joined ls) = Lexeme.joined (ls.map r.lexeme) := by
  induction ls with
  | nil => exact renamed_nil r
  | cons l ls ih =>
    obtain ⟨stands, others⟩ := Lexeme.adjacent_cons.1 adjacent
    obtain ⟨kind, spelling⟩ := l
    obtain ⟨u, taken, rfl⟩ := TokenKind.spells_nonempty stands.1 stands.2.1
    have found := Piece.atHead_of_stands stands
    rw [List.append_nil] at found
    rw [Lexeme.joined_cons, List.cons_append, renamed_cons r found, List.take_left, List.drop_left,
      ih others]
    rfl

end Text

end ProcCheck
