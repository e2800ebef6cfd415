import Mathlib.Data.List.Forall2
import Mathlib.Data.List.TakeWhile

/-!
# Lib.Shell

How a shell reads a command line: quoting, words and operators, as POSIX has them. A text that needs
more than that (an expansion, a pattern, a comment, a redirection) is not read, and neither is one
that ends inside quotes.

* `Lexer.step`: one character. `tokens`: the words and operators of a text.
* `simpleCommand`: the assignments and the arguments of a command.
* `Spells`: a text that is read as some letters wherever it stands. `Spells.quote`: single quotes.
* `tokens_append`, `tokens_words`: texts with blanks between them are read one by one.
* `Lexer.count_run`: no character is made up.
* `Lexer.run_double_escape`: single quotes inside double quotes leave a text as it is if and only if
  it is `inert`.
-/

namespace Shell

def squote : Char := Char.ofNat 39

def dquote : Char := Char.ofNat 34

def backslash : Char := Char.ofNat 92

def backtick : Char := Char.ofNat 96

/-- A character of a word, and whether it was quoted. -/
structure Letter where
  char : Char
  quoted : Bool
  deriving DecidableEq

abbrev Word := List Letter

/-- The text of a word, after the removal of quotes. -/
def Word.text (w : Word) : List Char := w.map Letter.char

def plain (cs : List Char) : Word := cs.map fun c => { char := c, quoted := false }

def quoted (cs : List Char) : Word := cs.map fun c => { char := c, quoted := true }

inductive Token where
  | word (letters : Word)
  | op (text : List Char)
  deriving DecidableEq

inductive Mode where
  | plain
  | single
  | double
  deriving DecidableEq

/-- A character whose meaning depends on the next one. -/
inductive Pending where
  | none
  | backslash
  | dollar
  | op (c : Char)
  deriving DecidableEq

def Pending.text : Pending → List Char
  | .none => []
  | .backslash => [Shell.backslash]
  | .dollar => ['$']
  | .op c => [c]

/-- The tokens so far, and the word that is being read. -/
structure Lexer where
  tokens : List Token
  word : Option Word
  mode : Mode
  pending : Pending
  deriving DecidableEq

def isBlank (c : Char) : Bool := c == ' ' || c == '\t'

def isOperator (c : Char) : Bool := c == ';' || c == '&' || c == '|' || c == '\n'

/-- Outside of quotes it begins a pattern, an expansion, a comment, a redirection or a group. -/
def isActive (c : Char) : Bool :=
  c == backtick ||
    ['*', '?', '[', ']', '#', '~', '(', ')', '{', '}', '<', '>', '!'].contains c

/-- What may follow a dollar sign in an expansion. -/
def startsExpansion (c : Char) : Bool :=
  c.isAlphanum || ['_', '@', '*', '#', '?', '-', '$', '!', '(', '{', '['].contains c

/-- What a backslash quotes inside double quotes, where other characters keep it. -/
def isEscapable (c : Char) : Bool :=
  c == '$' || c == backtick || c == dquote || c == backslash

namespace Lexer

def start : Lexer := { tokens := [], word := none, mode := .plain, pending := .none }

/-- The word that is being read, which begins here if there is none. -/
def letters (s : Lexer) : Word := s.word.getD []

def append (s : Lexer) (w : Word) : Lexer := { s with word := some (s.letters ++ w) }

def put (s : Lexer) (c : Char) (quoted : Bool) : Lexer := s.append [{ char := c, quoted }]

def endWord (s : Lexer) : Lexer :=
  match s.word with
  | none => s
  | some w => { s with tokens := s.tokens ++ [.word w], word := none }

def addOp (s : Lexer) (text : List Char) : Lexer := { s with tokens := s.tokens ++ [.op text] }

/-- Quotes begin or end, and belong to a word even if nothing is between them. -/
def enter (s : Lexer) (mode : Mode) : Lexer := { s.append [] with mode }

def await (s : Lexer) (pending : Pending) : Lexer := { s with pending }

/-- A character by itself. -/
def read (s : Lexer) (c : Char) : Option Lexer :=
  match s.mode with
  | .plain =>
    if c = squote then some (s.enter .single)
    else if c = dquote then some (s.enter .double)
    else if c = backslash then some (s.await .backslash)
    else if c = '$' then some (s.await .dollar)
    else if isBlank c then some s.endWord
    else if isOperator c then some (s.endWord.await (.op c))
    else if isActive c then none
    else some (s.put c false)
  | .single => if c = squote then some (s.enter .plain) else some (s.put c true)
  | .double =>
    if c = dquote then some (s.enter .plain)
    else if c = backslash then some (s.await .backslash)
    else if c = '$' then some (s.await .dollar)
    else if c = backtick then none
    else some (s.put c true)

def step (s : Lexer) (c : Char) : Option Lexer :=
  let settled := s.await .none
  match s.pending with
  | .none => s.read c
  | .backslash =>
    if c = '\n' then some settled
    else if s.mode = .double ∧ ¬ isEscapable c then (settled.put backslash true).read c
    else some (settled.put c true)
  | .dollar =>
    if startsExpansion c then none
    else if s.mode = .plain ∧ (c = squote ∨ c = dquote) then none
    else (settled.put '$' (s.mode = .double)).read c
  | .op o =>
    if o = '\n' then (settled.addOp [o]).read c
    else if c = o then some (settled.addOp [o, o])
    else if c ≠ '\n' ∧ isOperator c then none
    else (settled.addOp [o]).read c

def run (s : Lexer) (cs : List Char) : Option Lexer := cs.foldlM step s

def finish (s : Lexer) : Option (List Token) :=
  if s.word = none ∧ s.mode = .plain ∧ s.pending = .none then some s.tokens else none

end Lexer

/-- The words and operators of a text. Its end ends a word, as a blank does. -/
def tokens (cs : List Char) : Option (List Token) :=
  (Lexer.start.run (cs ++ [' '])).bind Lexer.finish

/-! ## Commands -/

def isName : List Char → Bool
  | [] => false
  | c :: cs => (c.isAlpha || c == '_') && cs.all fun c => c.isAlphanum || c == '_'

/-- The name and the value of a word that is an assignment. -/
def assignment (w : Word) : Option (List Char × List Char) :=
  let name := w.takeWhile fun l => l ≠ { char := '=', quoted := false }
  match w.drop name.length with
  | [] => none
  | _ :: value =>
    if name.all (fun l => !l.quoted) ∧ isName (Word.text name) then
      some (Word.text name, Word.text value)
    else none

/-- Assignments stand before the command. -/
def splitAssignments : List Word → List (List Char × List Char) × List Word
  | [] => ([], [])
  | w :: ws =>
    match assignment w with
    | none => ([], w :: ws)
    | some binding =>
      let (bindings, rest) := splitAssignments ws
      (binding :: bindings, rest)

/-- Tokens that are all words. -/
def allWords : List Token → Option (List Word)
  | [] => some []
  | .word w :: ts => (allWords ts).map (w :: ·)
  | .op _ :: _ => none

/-- The assignments and the arguments of one command. -/
def simpleCommand (cs : List Char) : Option (List (List Char × List Char) × List (List Char)) :=
  (tokens cs).bind fun ts => (allWords ts).map fun ws =>
    let (bindings, rest) := splitAssignments ws
    (bindings, rest.map Word.text)

/-- A token after the removal of quotes. -/
inductive Item where
  | arg (text : List Char)
  | op (text : List Char)
  deriving DecidableEq

def Token.item : Token → Item
  | .word w => .arg w.text
  | .op text => .op text

def Item.text : Item → List Char
  | .arg text => text
  | .op text => text

/-- The arguments and operators of a text. -/
def items (cs : List Char) : Option (List Item) := (tokens cs).map (List.map Token.item)

/-! ## Quoting -/

/-- A single quote is one that stands outside of the quotes. -/
def escape (cs : List Char) : List Char :=
  cs.flatMap fun c => if c = squote then [squote, backslash, squote, squote] else [c]

/-- A text in single quotes. -/
def quote (cs : List Char) : List Char := [squote] ++ escape cs ++ [squote]

/-- A text that double quotes leave as it is. -/
def inert : List Char → Bool
  | [] => true
  | c :: cs =>
    c != dquote && c != backtick && !(c == '$' && cs.head?.any startsExpansion) &&
      !(c == backslash && cs.head?.any fun c => c == '\n' || isEscapable c) && inert cs

/-- A character that outside of quotes is a letter of a word. -/
def ordinary (c : Char) : Bool :=
  c != squote && c != dquote && c != backslash && c != '$' && !isBlank c && !isOperator c &&
    !isActive c

/-- A character that double quotes leave as it is, whatever stands next to it. -/
def literal (c : Char) : Bool :=
  c != dquote && c != backslash && c != '$' && c != backtick

/-- Outside of quotes, the text is read as these letters, wherever it stands. -/
def Spells (cs : List Char) (w : Word) : Prop :=
  ∀ s : Lexer, s.mode = .plain → s.pending = .none → s.run cs = some (s.append w)

@[simp] theorem Word.text_append (v w : Word) : Word.text (v ++ w) = v.text ++ w.text :=
  List.map_append

@[simp] theorem Word.text_plain (cs : List Char) : Word.text (plain cs) = cs := by
  simp [Word.text, plain, Function.comp_def]

@[simp] theorem Word.text_quoted (cs : List Char) : Word.text (quoted cs) = cs := by
  simp [Word.text, quoted, Function.comp_def]

theorem plain_append (xs ys : List Char) : plain (xs ++ ys) = plain xs ++ plain ys :=
  List.map_append

theorem quoted_append (xs ys : List Char) : quoted (xs ++ ys) = quoted xs ++ quoted ys :=
  List.map_append

theorem escape_append (xs ys : List Char) : escape (xs ++ ys) = escape xs ++ escape ys :=
  List.flatMap_append

theorem escape_cons (c : Char) (cs : List Char) :
    escape (c :: cs) =
      (if c = squote then [squote, backslash, squote, squote] else [c]) ++ escape cs :=
  List.flatMap_cons

theorem escape_cons_of_ne {c : Char} (hc : c ≠ squote) (cs : List Char) :
    escape (c :: cs) = c :: escape cs := by
  rw [escape_cons, if_neg hc, List.singleton_append]

/-- Quoting adds only single quotes and backslashes. -/
theorem count_escape {a : Char} (hq : a ≠ squote) (hb : a ≠ backslash) (cs : List Char) :
    (escape cs).count a = cs.count a := by
  induction cs with
  | nil => rfl
  | cons c cs ih =>
    rw [escape_cons, List.count_append, ih, List.count_cons]
    by_cases hc : c = squote
    · simp [hc, hq.symm, hb.symm]
    · simp [hc, List.count_singleton, Nat.add_comm]

theorem count_quote {a : Char} (hq : a ≠ squote) (hb : a ≠ backslash) (cs : List Char) :
    (quote cs).count a = cs.count a := by
  have hs : [squote].count a = 0 := by simp [hq.symm]
  rw [quote, List.count_append, List.count_append, count_escape hq hb, hs, Nat.zero_add,
    Nat.add_zero]

theorem ordinary_of_alphanum {c : Char} (h : (c.isAlphanum || c == '_') = true) :
    ordinary c = true := by
  by_contra hc
  simp only [ordinary, isBlank, isOperator, isActive, List.contains_cons, List.contains_nil,
    Bool.or_false, Bool.and_eq_true, bne_iff_ne, Bool.not_eq_true', Bool.or_eq_false_iff,
    beq_eq_false_iff_ne, not_and_or, not_not] at hc
  rcases hc with ((((((rfl | rfl) | rfl) | rfl) | rfl | rfl) | ((rfl | rfl) | rfl) | rfl) |
    rfl | rfl | rfl | rfl | rfl | rfl | rfl | rfl | rfl | rfl | rfl | rfl | rfl | rfl) <;>
    revert h <;> decide

theorem ordinary_of_isName {name : List Char} (h : isName name = true) :
    name.all ordinary = true := by
  cases name with
  | nil => rfl
  | cons c cs =>
    rw [isName, Bool.and_eq_true, List.all_eq_true] at h
    rw [List.all_eq_true]
    intro d hd
    obtain rfl | hd := List.mem_cons.1 hd
    · refine ordinary_of_alphanum ?_
      obtain hd | hd := Bool.or_eq_true_iff.1 h.1
      · rw [Char.isAlphanum, hd, Bool.true_or, Bool.true_or]
      · rw [hd, Bool.or_true]
    · exact ordinary_of_alphanum (h.2 _ hd)

namespace Lexer

variable {s t : Lexer} {c : Char} {cs : List Char}

@[simp] theorem append_mode (w : Word) : (s.append w).mode = s.mode := rfl

@[simp] theorem append_pending (w : Word) : (s.append w).pending = s.pending := rfl

@[simp] theorem append_tokens (w : Word) : (s.append w).tokens = s.tokens := rfl

@[simp] theorem append_word (w : Word) : (s.append w).word = some (s.letters ++ w) := rfl

@[simp] theorem append_append (v w : Word) : (s.append v).append w = s.append (v ++ w) := by
  simp [append, letters]

theorem append_nil {w : Word} (h : s.word = some w) : s.append [] = s := by
  cases s
  simp_all [append, letters]

@[simp] theorem enter_mode (m : Mode) : (s.enter m).mode = m := rfl

@[simp] theorem enter_pending (m : Mode) : (s.enter m).pending = s.pending := rfl

@[simp] theorem enter_tokens (m : Mode) : (s.enter m).tokens = s.tokens := rfl

/-- Quotes that end give back the letters that were read inside. -/
theorem enter_append_enter {m : Mode} (hs : s.mode = .plain) (w : Word) :
    ((s.enter m).append w).enter .plain = s.append w := by
  cases s
  simp_all [append, enter, letters]

@[simp] theorem endWord_mode : s.endWord.mode = s.mode := by
  unfold endWord
  split <;> rfl

@[simp] theorem endWord_pending : s.endWord.pending = s.pending := by
  unfold endWord
  split <;> rfl

@[simp] theorem endWord_word : s.endWord.word = none := by
  unfold endWord
  split
  · assumption
  · rfl

@[simp] theorem endWord_endWord : s.endWord.endWord = s.endWord := by
  cases s with
  | mk tokens word mode pending => cases word <;> rfl

/-! ## Runs -/

theorem run_nil : s.run [] = some s := rfl

theorem run_cons : s.run (c :: cs) = (s.step c).bind fun s => s.run cs := rfl

theorem run_append (xs ys : List Char) : s.run (xs ++ ys) = (s.run xs).bind fun s => s.run ys :=
  List.foldlM_append

theorem run_cons_of_step (h : s.step c = some t) : s.run (c :: cs) = t.run cs := by
  rw [run_cons, h]
  rfl

theorem run_append_of_run {xs ys : List Char} (h : s.run xs = some t) :
    s.run (xs ++ ys) = t.run ys := by
  rw [run_append, h]
  rfl

theorem step_of_none (h : s.pending = .none) : s.step c = s.read c := by
  simp only [step, h]

/-! ## Words that are spelled -/

theorem run_ordinary (hm : s.mode = .plain) (hp : s.pending = .none) (hc : ordinary c = true) :
    s.run (c :: cs) = (s.append (plain [c])).run cs := by
  apply run_cons_of_step
  simp only [ordinary, Bool.and_eq_true, bne_iff_ne, Bool.not_eq_true'] at hc
  obtain ⟨⟨⟨⟨⟨⟨hsq, hdq⟩, hbs⟩, hdollar⟩, hblank⟩, hop⟩, hactive⟩ := hc
  simp [step_of_none hp, read, hm, hsq, hdq, hbs, hdollar, hblank, hop, hactive, put, plain]

theorem run_escape {w : Word} (hm : s.mode = .single) (hp : s.pending = .none)
    (hw : s.word = some w) : s.run (escape cs) = some (s.append (quoted cs)) := by
  induction cs generalizing s w with
  | nil => rw [show quoted [] = [] from rfl, append_nil hw]; rfl
  | cons c cs ih =>
    have hstep : s.run (escape (c :: cs)) = (s.append (quoted [c])).run (escape cs) := by
      by_cases hc : c = squote
      · rw [escape_cons, if_pos hc]
        cases s
        cases hm
        cases hp
        cases hw
        rw [hc]
        simp [run_cons, step, read, enter, await, append, letters, put, squote, backslash, dquote,
          isEscapable, quoted]
      · rw [escape_cons_of_ne hc]
        apply run_cons_of_step
        simp [step_of_none hp, read, hm, hc, put, quoted]
    rw [hstep, ih (by simpa using hm) (by simpa using hp) rfl, append_append, ← quoted_append]
    rfl

end Lexer

theorem Spells.append {xs ys : List Char} {v w : Word} (hx : Spells xs v) (hy : Spells ys w) :
    Spells (xs ++ ys) (v ++ w) := by
  intro s hm hp
  rw [Lexer.run_append_of_run (hx s hm hp), hy _ (by simpa using hm) (by simpa using hp),
    Lexer.append_append]

theorem Spells.plain {cs : List Char} (hne : cs ≠ []) (h : cs.all ordinary = true) :
    Spells cs (plain cs) := by
  induction cs with
  | nil => exact absurd rfl hne
  | cons c cs ih =>
    rw [List.all_cons, Bool.and_eq_true] at h
    intro s hm hp
    rw [Lexer.run_ordinary hm hp h.1]
    cases cs with
    | nil => rfl
    | cons d ds =>
      rw [ih (by simp) h.2 _ (by simpa using hm) (by simpa using hp), Lexer.append_append]
      rfl

/-- A quoted text is read as itself, wherever it stands. -/
theorem Spells.quote (cs : List Char) : Spells (quote cs) (quoted cs) := by
  intro s hm hp
  have hopen : s.step squote = some (s.enter .single) := by
    simp [Lexer.step_of_none hp, Lexer.read, hm]
  have hclose : ((s.enter .single).append (quoted cs)).step squote =
      some (((s.enter .single).append (quoted cs)).enter .plain) := by
    simp [Lexer.step_of_none (s := (s.enter .single).append (quoted cs)) (by simpa using hp),
      Lexer.read]
  rw [Shell.quote, List.append_assoc, List.singleton_append, Lexer.run_cons_of_step hopen,
    Lexer.run_append_of_run (Lexer.run_escape rfl (by simpa using hp) rfl),
    Lexer.run_cons_of_step hclose, Lexer.enter_append_enter hm]
  rfl

namespace Lexer

variable {s t : Lexer} {c : Char} {cs : List Char}

theorem run_blank (hm : s.mode = .plain) (hp : s.pending = .none) :
    s.run (' ' :: cs) = s.endWord.run cs := by
  apply run_cons_of_step
  simp [step_of_none hp, read, hm, isBlank, squote, dquote, backslash]

/-! ## What was read before -/

/-- More tokens before those that were read. -/
def prepend (ts : List Token) (s : Lexer) : Lexer := { s with tokens := ts ++ s.tokens }

section Prepend

variable (ts : List Token)

theorem prepend_endWord : (s.prepend ts).endWord = s.endWord.prepend ts := by
  cases s with
  | mk tokens word mode pending => cases word <;> simp [prepend, endWord]

theorem prepend_addOp (text : List Char) :
    (s.prepend ts).addOp text = (s.addOp text).prepend ts := by
  simp [prepend, addOp]

theorem prepend_put (q : Bool) : (s.prepend ts).put c q = (s.put c q).prepend ts := rfl

theorem prepend_enter (m : Mode) : (s.prepend ts).enter m = (s.enter m).prepend ts := rfl

theorem prepend_await (p : Pending) : (s.prepend ts).await p = (s.await p).prepend ts := rfl

/-- What was read before changes nothing in how a character is read. -/
theorem read_prepend : (s.prepend ts).read c = (s.read c).map (prepend ts) := by
  simp only [read, prepend_enter, prepend_await, prepend_endWord, prepend_put]
  rw [show (s.prepend ts).mode = s.mode from rfl]
  split <;> split_ifs <;> rfl

theorem step_prepend : (s.prepend ts).step c = (s.step c).map (prepend ts) := by
  simp only [step, prepend_await, prepend_put, prepend_addOp, read_prepend]
  rw [show (s.prepend ts).mode = s.mode from rfl,
    show (s.prepend ts).pending = s.pending from rfl]
  cases s.pending with
  | none => rfl
  | backslash | dollar | op => dsimp only; split_ifs <;> rfl

theorem run_prepend : (s.prepend ts).run cs = (s.run cs).map (prepend ts) := by
  induction cs generalizing s with
  | nil => rfl
  | cons c cs ih =>
    rw [run_cons, run_cons, step_prepend]
    cases s.step c with
    | none => rfl
    | some t => exact ih

end Prepend

theorem finish_eq_some {ts : List Token} (h : s.finish = some ts) : s = start.prepend ts := by
  rw [finish] at h
  split_ifs at h with hs
  cases s
  cases h
  cases hs.1
  cases hs.2.1
  cases hs.2.2
  simp [prepend, start]

end Lexer

/-! ## Commands that are spelled -/

theorem run_of_tokens {cs : List Char} {ts : List Token} (h : tokens cs = some ts) :
    Lexer.start.run (cs ++ [' ']) = some (Lexer.start.prepend ts) := by
  obtain ⟨s, hs, hfinish⟩ := Option.bind_eq_some_iff.1 h
  rw [hs, Lexer.finish_eq_some hfinish]

theorem tokens_append {xs ys : List Char} {ts us : List Token} (hx : tokens xs = some ts)
    (hy : tokens ys = some us) : tokens (xs ++ ' ' :: ys) = some (ts ++ us) := by
  rw [tokens, ← List.singleton_append, ← List.append_assoc, List.append_assoc,
    Lexer.run_append_of_run (run_of_tokens hx), Lexer.run_prepend, run_of_tokens hy]
  simp [Lexer.prepend, Lexer.start, Lexer.finish]

theorem tokens_blank (cs : List Char) : tokens (' ' :: cs) = tokens cs := by
  rw [tokens, List.cons_append, Lexer.run_blank rfl rfl]
  rfl

theorem tokens_spells {cs : List Char} {w : Word} (h : Spells cs w) :
    tokens cs = some [.word w] := by
  rw [tokens, Lexer.run_append_of_run (h _ rfl rfl), Lexer.run_blank rfl rfl]
  simp [Lexer.run_nil, Lexer.finish, Lexer.endWord, Lexer.append, Lexer.letters, Lexer.start]

/-- More words, with a blank before each. -/
theorem tokens_words {xs : List Char} {ts : List Token} {ws : List (List Char × Word)}
    (hx : tokens xs = some ts) (h : ∀ w ∈ ws, Spells w.1 w.2) :
    tokens (xs ++ ws.flatMap fun w => ' ' :: w.1) = some (ts ++ ws.map fun w => .word w.2) := by
  induction ws generalizing xs ts with
  | nil => rw [List.flatMap_nil, List.append_nil, hx]; simp
  | cons w ws ih =>
    obtain ⟨hw, hws⟩ := List.forall_mem_cons.1 h
    rw [List.flatMap_cons, ← List.append_assoc,
      ih (tokens_append hx (tokens_spells hw)) hws]
    simp

/-- A semicolon after a word. -/
theorem tokens_semicolon {cs : List Char} {w : Word} (h : Spells cs w) :
    tokens (cs ++ [';']) = some [.word w, .op [';']] := by
  have hstep {s : Lexer} (hm : s.mode = .plain) (hp : s.pending = .none) :
      s.step ';' = some (s.endWord.await (.op ';')) := by
    rw [Lexer.step_of_none hp, Lexer.read, hm]
    rfl
  rw [tokens, List.append_assoc, Lexer.run_append_of_run (h _ rfl rfl), List.singleton_append,
    Lexer.run_cons_of_step (hstep rfl rfl)]
  rfl

theorem items_append {xs ys : List Char} {is js : List Item} (hx : items xs = some is)
    (hy : items ys = some js) : items (xs ++ ' ' :: ys) = some (is ++ js) := by
  obtain ⟨ts, hts, rfl⟩ := Option.map_eq_some_iff.1 hx
  obtain ⟨us, hus, rfl⟩ := Option.map_eq_some_iff.1 hy
  rw [items, tokens_append hts hus, Option.map_some, List.map_append]

theorem items_quote (cs : List Char) : items (quote cs) = some [.arg cs] := by
  rw [items, tokens_spells (.quote cs), Option.map_some, List.map_singleton, Token.item,
    Word.text_quoted]

theorem allWords_map (ws : List Word) : allWords (ws.map .word) = some ws := by
  induction ws with
  | nil => rfl
  | cons w ws ih => rw [List.map_cons, allWords, ih, Option.map_some]

theorem assignment_name {name : List Char} (h : isName name = true) (value : List Char) :
    assignment (plain (name ++ ['=']) ++ quoted value) = some (name, value) := by
  have hchars : ∀ c ∈ name, c ≠ '=' := by
    rintro c hc rfl
    cases name with
    | nil => cases hc
    | cons d ds =>
      rw [isName, Bool.and_eq_true, List.all_eq_true] at h
      obtain rfl | hc := List.mem_cons.1 hc
      · exact absurd h.1 (by decide)
      · exact absurd (h.2 _ hc) (by decide)
  have hname : (plain (name ++ ['=']) ++ quoted value).takeWhile
      (fun l => l ≠ { char := '=', quoted := false }) = plain name := by
    rw [plain_append, List.append_assoc, List.takeWhile_append_of_pos]
    · exact List.append_nil _
    · intro l hl
      obtain ⟨c, hc, rfl⟩ := List.mem_map.1 hl
      simpa using hchars c hc
  have hdrop : (plain (name ++ ['=']) ++ quoted value).drop (plain name).length =
      { char := '=', quoted := false } :: quoted value := by
    rw [plain_append, List.append_assoc]
    exact List.drop_left
  have hquoted : (plain name).all (fun l => !l.quoted) = true := by simp [plain]
  rw [assignment, hname, hdrop]
  simp [hquoted, h]

theorem assignment_none {cs : List Char} (h : '=' ∉ cs) : assignment (plain cs) = none := by
  have hname : (plain cs).takeWhile (fun l => l ≠ { char := '=', quoted := false }) =
      plain cs := by
    rw [List.takeWhile_eq_self_iff]
    intro l hl
    obtain ⟨c, hc, rfl⟩ := List.mem_map.1 hl
    simp only [ne_eq, Letter.mk.injEq, and_true, decide_not, Bool.not_eq_true',
      decide_eq_false_iff_not]
    rintro rfl
    exact h hc
  rw [assignment, hname, List.drop_length]

theorem splitAssignments_append {bindings : List (List Char × List Char)} {vs : List Word}
    (h : List.Forall₂ (fun v b => assignment v = some b) vs bindings) {w : Word}
    (hw : assignment w = none) (ws : List Word) :
    splitAssignments (vs ++ w :: ws) = (bindings, w :: ws) := by
  induction h with
  | nil => rw [List.nil_append, splitAssignments, hw]
  | cons hv _ ih => rw [List.cons_append, splitAssignments, hv, ih]

namespace Lexer

variable {s t : Lexer} {c : Char} {cs : List Char}

/-! ## What is lost -/

/-- What was read, less the characters that have done their work. -/
def text (s : Lexer) : List Char :=
  s.tokens.flatMap (fun t => t.item.text) ++ Word.text s.letters ++ s.pending.text

section Counts

variable {a : Char}

theorem text_of_none (h : s.pending = .none) :
    s.text = s.tokens.flatMap (fun t => t.item.text) ++ Word.text s.letters := by
  rw [text, h, Pending.text, List.append_nil]

theorem text_enter (m : Mode) : (s.enter m).text = s.text := by
  simp [text, enter, append, letters]

theorem count_append (w : Word) :
    (s.append w).text.count a = s.text.count a + (Word.text w).count a := by
  simp only [text, append_tokens, append_pending, letters, append_word, Option.getD_some,
    Word.text_append, List.count_append]
  omega

theorem count_endWord : s.endWord.text.count a = s.text.count a := by
  cases s with
  | mk tokens word mode pending =>
    cases word with
    | none => rfl
    | some w => simp [text, endWord, letters, Token.item, Item.text, Word.text]

theorem count_addOp (cs : List Char) :
    (s.addOp cs).text.count a = s.text.count a + cs.count a := by
  simp only [text, addOp, letters, List.flatMap_append, List.count_append]
  simp [Token.item, Item.text]
  omega

theorem count_put (c : Char) (q : Bool) :
    (s.put c q).text.count a = s.text.count a + [c].count a :=
  count_append _

theorem count_await (p : Pending) :
    (s.await p).text.count a + s.pending.text.count a = s.text.count a + p.text.count a := by
  simp only [text, await, letters, List.count_append]
  omega

/-- A character adds at most itself. -/
theorem count_read (hp : s.pending = .none) (h : s.read c = some t) :
    t.text.count a ≤ s.text.count a + [c].count a := by
  have hawait (s : Lexer) (hp : s.pending = .none) (p : Pending) :
      (s.await p).text.count a = s.text.count a + p.text.count a := by
    simpa [hp, Pending.text] using s.count_await (a := a) p
  cases hm : s.mode with
  | plain =>
    simp only [read, hm] at h
    split_ifs at h with hsq hdq hbs hdollar hblank hop hactive <;> cases h
    · rw [text_enter]; exact Nat.le_add_right _ _
    · rw [text_enter]; exact Nat.le_add_right _ _
    · rw [hbs, hawait s hp]; exact Nat.le_refl _
    · rw [hdollar, hawait s hp]; exact Nat.le_refl _
    · rw [count_endWord]; exact Nat.le_add_right _ _
    · rw [hawait _ (s.endWord_pending.trans hp), count_endWord]; exact Nat.le_refl _
    · exact Nat.le_of_eq (count_put c _)
  | single =>
    simp only [read, hm] at h
    split_ifs at h <;> cases h
    · rw [text_enter]; exact Nat.le_add_right _ _
    · exact Nat.le_of_eq (count_put c _)
  | double =>
    simp only [read, hm] at h
    split_ifs at h with hdq hbs hdollar hbacktick <;> cases h
    · rw [text_enter]; exact Nat.le_add_right _ _
    · rw [hbs, hawait s hp]; exact Nat.le_refl _
    · rw [hdollar, hawait s hp]; exact Nat.le_refl _
    · exact Nat.le_of_eq (count_put c _)

/-- What waited for the next character, on its own. -/
theorem count_settled :
    (s.await .none).text.count a + s.pending.text.count a = s.text.count a :=
  s.count_await .none

theorem count_read_put {b : Char} {q : Bool} (h : ((s.await .none).put b q).read c = some t) :
    t.text.count a ≤ (s.await .none).text.count a + [b].count a + [c].count a := by
  rw [← count_put b q]
  exact count_read (by rfl) h

theorem count_read_addOp {op : List Char} (h : ((s.await .none).addOp op).read c = some t) :
    t.text.count a ≤ (s.await .none).text.count a + op.count a + [c].count a := by
  rw [← count_addOp op]
  exact count_read (by rfl) h

theorem count_step (h : s.step c = some t) :
    t.text.count a ≤ s.text.count a + [c].count a := by
  have hsettled := s.count_settled (a := a)
  rw [step] at h
  cases hp : s.pending with
  | none => rw [hp] at h; exact count_read hp h
  | backslash =>
    simp only [hp, Pending.text] at h hsettled
    split_ifs at h
    · cases h
      omega
    · have hread := count_read_put (a := a) h
      omega
    · cases h
      rw [count_put]
      omega
  | dollar =>
    simp only [hp, Pending.text] at h hsettled
    split_ifs at h
    have hread := count_read_put (a := a) h
    omega
  | op o =>
    simp only [hp, Pending.text] at h hsettled
    split_ifs at h with hnewline hsame hother
    · have hread := count_read_addOp (a := a) h
      omega
    · cases h
      rw [count_addOp, ← hsame, show [c, c] = [c] ++ [c] from rfl, List.count_append]
      rw [← hsame] at hsettled
      omega
    · have hread := count_read_addOp (a := a) h
      omega

/-- No character is made up. -/
theorem count_run (h : s.run cs = some t) :
    t.text.count a ≤ s.text.count a + cs.count a := by
  induction cs generalizing s with
  | nil => cases h; exact Nat.le_add_right _ _
  | cons c cs ih =>
    obtain ⟨u, hu, ht⟩ := Option.bind_eq_some_iff.1 (run_cons.symm.trans h)
    have hstep := count_step (a := a) hu
    have hrun := ih ht
    rw [← List.singleton_append, List.count_append]
    omega

theorem text_prepend (ts : List Token) :
    (start.prepend ts).text = ts.flatMap fun t => t.item.text := by
  simp [text, prepend, start, letters, Word.text, Pending.text]

end Counts

/-! ## Double quotes -/

theorem step_squote_pending (h : s.step squote = some t) : t.pending = .none := by
  have hread {s : Lexer} (hp : s.pending = .none) (h : s.read squote = some t) :
      t.pending = .none := by
    cases hm : s.mode <;> simp only [read, hm] at h <;> cases h <;> exact hp
  rw [step] at h
  cases hp : s.pending with
  | none => rw [hp] at h; exact hread hp h
  | backslash =>
    simp only [hp] at h
    split_ifs at h
    · cases h; rfl
    · exact hread (by rfl) h
    · cases h; rfl
  | dollar =>
    simp only [hp] at h
    split_ifs at h
    exact hread (by rfl) h
  | op o =>
    simp only [hp] at h
    split_ifs at h
    · exact hread (by rfl) h
    · cases h; rfl
    · exact hread (by rfl) h

theorem run_squote_pending (h : s.run (cs ++ [squote]) = some t) : t.pending = .none := by
  rw [run_append] at h
  obtain ⟨u, -, hu⟩ := Option.bind_eq_some_iff.1 h
  rw [run_cons] at hu
  obtain ⟨v, hv, hvt⟩ := Option.bind_eq_some_iff.1 hu
  cases hvt
  exact step_squote_pending hv

/-- A double quote at the end of a text ends double quotes. -/
theorem last_dquote {ts : List Token} (hp : s.pending = .none) :
    (s.run [dquote, ' ']).bind finish = some ts ↔
      s.mode = .double ∧ (s.enter .plain).endWord.tokens = ts := by
  have hdq : dquote ≠ squote := by decide
  have hblank : ' ' ≠ squote ∧ ' ' ≠ dquote ∧ ' ' ≠ backslash ∧ ' ' ≠ '$' ∧ ' ' ≠ backtick := by
    decide
  cases hm : s.mode with
  | plain => simp [run_cons, run_nil, step_of_none, read, hm, hp, hdq, hblank, finish, put]
  | single => simp [run_cons, run_nil, step_of_none, read, hm, hp, hdq, hblank, finish, put]
  | double => simp [run_cons, run_nil, step_of_none, read, hm, hp, hblank, isBlank, finish]

theorem count_tokens {a : Char} (hp : s.pending = .none) :
    (s.endWord.tokens.flatMap fun t => t.item.text).count a = s.text.count a := by
  rw [← count_endWord, text_of_none (s.endWord_pending.trans hp), letters, endWord_word]
  simp [Word.text]

theorem run_open_dquote (hm : s.mode = .plain) (hp : s.pending = .none) :
    s.run (dquote :: cs) = (s.enter .double).run cs := by
  have hdq : dquote ≠ squote := by decide
  apply run_cons_of_step
  simp [step_of_none hp, read, hm, hdq]

section Double

variable {d : Char} (hm : s.mode = .double) (hp : s.pending = .none)
include hm hp

theorem run_literal (hc : literal c = true) :
    s.run (c :: cs) = (s.append (quoted [c])).run cs := by
  apply run_cons_of_step
  simp only [literal, Bool.and_eq_true, bne_iff_ne] at hc
  obtain ⟨⟨⟨hdq, hbs⟩, hdollar⟩, hbacktick⟩ := hc
  simp [step_of_none hp, read, hm, hdq, hbs, hdollar, hbacktick, put, quoted]

theorem run_literals {r : List Char} (hcs : cs.all literal = true) (hne : cs ≠ []) :
    s.run (cs ++ r) = (s.append (quoted cs)).run r := by
  induction cs generalizing s with
  | nil => exact absurd rfl hne
  | cons c cs ih =>
    rw [List.all_cons, Bool.and_eq_true] at hcs
    rw [List.cons_append, run_literal hm hp hcs.1]
    cases cs with
    | nil => rfl
    | cons d ds =>
      rw [ih (by exact hm) (by exact hp) hcs.2 (List.cons_ne_nil _ _), append_append]
      rfl

theorem run_dquote : s.run (dquote :: cs) = (s.enter .plain).run cs := by
  apply run_cons_of_step
  simp [step_of_none hp, read, hm]

theorem run_backtick : s.run (backtick :: cs) = none := by
  rw [run_cons, step_of_none hp, read, hm]
  rfl

theorem step_dollar : s.step '$' = some (s.await .dollar) := by
  rw [step_of_none hp, read, hm]
  rfl

theorem step_backslash : s.step backslash = some (s.await .backslash) := by
  rw [step_of_none hp, read, hm]
  rfl

theorem run_expansion (hd : startsExpansion d = true) : s.run ('$' :: d :: cs) = none := by
  rw [run_cons_of_step (step_dollar hm hp), run_cons]
  simp [step, await, hd]

theorem run_dollar (hd : startsExpansion d = false) :
    s.run ('$' :: d :: cs) = (s.append (quoted ['$'])).run (d :: cs) := by
  rw [run_cons_of_step (step_dollar hm hp), run_cons, run_cons,
    step_of_none (s := s.append _) hp]
  congr 1
  cases s
  cases hm
  cases hp
  simp [step, await, hd, put, quoted, append, letters]

theorem run_backslash (hd : d ≠ '\n') (he : isEscapable d = false) :
    s.run (backslash :: d :: cs) = (s.append (quoted [backslash])).run (d :: cs) := by
  rw [run_cons_of_step (step_backslash hm hp), run_cons, run_cons,
    step_of_none (s := s.append _) hp]
  congr 1
  cases s
  cases hm
  cases hp
  simp [step, await, hd, he, put, quoted, append, letters]

theorem run_escapable (he : isEscapable d = true) :
    s.run (backslash :: d :: cs) = (s.append (quoted [d])).run cs := by
  have hd : d ≠ '\n' := by
    rintro rfl
    revert he
    decide
  rw [run_cons_of_step (step_backslash hm hp)]
  apply run_cons_of_step
  cases s
  cases hm
  cases hp
  simp [step, await, hd, he, put, quoted, append, letters]

theorem run_newline : s.run (backslash :: '\n' :: cs) = s.run cs := by
  rw [run_cons_of_step (step_backslash hm hp)]
  apply run_cons_of_step
  cases s
  cases hp
  rfl

end Double

/-! ### Single quotes inside double quotes -/

/-- What becomes of a text in single quotes inside double quotes: it stays as it is, or some of it
is lost, or a double quote in it ends the double quotes. -/
def Requoted (s : Lexer) (d r : List Char) : Prop :=
  (∃ e, (e = d ∧ inert d = true ∨ e.length < d.length ∧ inert d = false) ∧
      e.count dquote ≤ d.count dquote ∧
      s.run (escape d ++ squote :: r) = (s.append (quoted (escape e ++ [squote]))).run r) ∨
    inert d = false ∧ ∀ t, s.run (escape d ++ squote :: r) = some t →
      t.text.count dquote < s.text.count dquote + d.count dquote + r.count dquote

theorem Requoted.keep {d r : List Char} (hc : c ≠ dquote)
    (hrun : s.run (escape (c :: d) ++ squote :: r) =
      (s.append (quoted (escape [c]))).run (escape d ++ squote :: r))
    (hinert : inert (c :: d) = inert d) (h : Requoted (s.append (quoted (escape [c]))) d r) :
    Requoted s (c :: d) r := by
  obtain ⟨e, he, hle, hr⟩ | ⟨hi, hlost⟩ := h
  · refine .inl ⟨c :: e, ?_, ?_, ?_⟩
    · obtain ⟨rfl, hi⟩ | ⟨hlen, hi⟩ := he
      · exact .inl ⟨rfl, hinert.trans hi⟩
      · exact .inr ⟨Nat.succ_lt_succ hlen, hinert.trans hi⟩
    · rwa [List.count_cons_of_ne hc, List.count_cons_of_ne hc]
    · rw [hrun, hr, append_append, ← quoted_append, ← List.append_assoc, ← escape_append]
      rfl
  · refine .inr ⟨hinert.trans hi, fun t ht => ?_⟩
    have hcount := hlost t (hrun.symm.trans ht)
    rw [count_append, Word.text_quoted, count_escape (by decide) (by decide),
      List.count_singleton, if_neg (by simpa using hc)] at hcount
    rw [List.count_cons_of_ne hc]
    omega

theorem Requoted.lose {p q d r : List Char} (hlen : q.length < p.length)
    (hcount : q.count dquote ≤ p.count dquote) (hq : escape q = q)
    (hrun : s.run (escape (p ++ d) ++ squote :: r) =
      (s.append (quoted q)).run (escape d ++ squote :: r))
    (hinert : inert (p ++ d) = false) (h : Requoted (s.append (quoted q)) d r) :
    Requoted s (p ++ d) r := by
  obtain ⟨e, he, hle, hr⟩ | ⟨-, hlost⟩ := h
  · refine .inl ⟨q ++ e, .inr ⟨?_, hinert⟩, ?_, ?_⟩
    · have hle : e.length ≤ d.length := by
        obtain ⟨rfl, -⟩ | ⟨hlt, -⟩ := he
        · exact Nat.le_refl _
        · exact Nat.le_of_lt hlt
      rw [List.length_append, List.length_append]
      omega
    · rw [List.count_append, List.count_append]
      omega
    · rw [hrun, hr, append_append, ← quoted_append, ← List.append_assoc, escape_append, hq]
  · refine .inr ⟨hinert, fun t ht => ?_⟩
    have hless := hlost t (hrun.symm.trans ht)
    rw [count_append, Word.text_quoted] at hless
    rw [List.count_append]
    omega

/-- What stands next to a text in single quotes is its own next character, or the quote. -/
theorem escape_head (d r : List Char) :
    ∃ ys, escape d ++ squote :: r = d.head?.getD squote :: ys := by
  cases d with
  | nil => exact ⟨r, rfl⟩
  | cons c d =>
    by_cases hc : c = squote
    · rw [escape_cons, if_pos hc, hc]
      exact ⟨_, rfl⟩
    · rw [escape_cons_of_ne hc]
      exact ⟨_, rfl⟩

theorem any_head? {p : Char → Bool} (d : List Char) (hp : p squote = false) :
    d.head?.any p = p (d.head?.getD squote) := by
  cases d with
  | nil => exact hp.symm
  | cons c d => rfl

theorem inert_cons_of_literal {d : List Char} (hc : literal c = true) :
    inert (c :: d) = inert d := by
  simp only [literal, Bool.and_eq_true, bne_iff_ne] at hc
  obtain ⟨⟨⟨hdq, hbs⟩, hdollar⟩, hbacktick⟩ := hc
  simp [inert, hdq, hbs, hdollar, hbacktick]

theorem escape_singleton (hc : c ≠ squote) : escape [c] = [c] :=
  escape_cons_of_ne hc []

theorem inert_dollar (d : List Char) :
    inert ('$' :: d) = (!d.head?.any startsExpansion && inert d) := by
  have hne : ('$' != dquote) = true ∧ ('$' != backtick) = true ∧ ('$' == backslash) = false := by
    decide
  simp [inert, hne]

theorem inert_backslash (d : List Char) :
    inert (backslash :: d) =
      (!(d.head?.any fun c => c == '\n' || isEscapable c) && inert d) := by
  have hne : (backslash != dquote) = true ∧ (backslash != backtick) = true ∧
      (backslash == '$') = false := by
    decide
  simp [inert, hne]

section Requoted

variable {d r : List Char} {w : Word} (hm : s.mode = .double) (hp : s.pending = .none)
include hm hp

/-- The single quotes that stand for one are kept. -/
theorem run_double_squote :
    s.run (squote :: backslash :: squote :: squote :: r) =
      (s.append (quoted [squote, backslash, squote, squote])).run r := by
  have hq : literal squote = true := by decide
  rw [run_literal hm hp hq, run_backslash (by exact hm) (by exact hp) (by decide) (by decide),
    run_literal (by exact hm) (by exact hp) hq, run_literal (by exact hm) (by exact hp) hq]
  simp only [append_append]
  rfl

theorem requoted_dollar (hd : ∀ w, Requoted (s.append w) d r) : Requoted s ('$' :: d) r := by
  have hsq : '$' ≠ squote := by decide
  have hany := any_head? (p := startsExpansion) d (by decide)
  obtain ⟨ys, hys⟩ := escape_head d r
  cases hexp : startsExpansion (d.head?.getD squote) with
  | true =>
    refine .inr ⟨by rw [inert_dollar, hany, hexp]; rfl, fun t ht => ?_⟩
    rw [escape_cons_of_ne hsq, List.cons_append, hys, run_expansion hm hp hexp] at ht
    cases ht
  | false =>
    refine .keep (by decide) ?_ ?_ (hd _)
    · rw [escape_cons_of_ne hsq, escape_singleton hsq, List.cons_append, hys,
        run_dollar hm hp hexp]
    · rw [inert_dollar, hany, hexp]
      rfl

/-- A backslash is kept, or the character after it is quoted, or both are a line that goes on. -/
theorem requoted_backslash (hw : s.word = some w) (hd : ∀ w, Requoted (s.append w) d r)
    (hd' : ∀ w, Requoted (s.append w) d.tail r) : Requoted s (backslash :: d) r := by
  have hsq : backslash ≠ squote := by decide
  have hany := any_head? (p := fun c => c == '\n' || isEscapable c) d (by decide)
  obtain ⟨ys, hys⟩ := escape_head d r
  cases hnext : d.head?.any fun c => c == '\n' || isEscapable c with
  | false =>
    rw [hany, Bool.or_eq_false_iff, beq_eq_false_iff_ne] at hnext
    refine .keep (by decide) ?_ ?_ (hd _)
    · rw [escape_cons_of_ne hsq, escape_singleton hsq, List.cons_append, hys,
        run_backslash hm hp hnext.1 hnext.2]
    · rw [inert_backslash, hany]
      simp [hnext]
  | true =>
    have hinert : inert (backslash :: d) = false := by rw [inert_backslash, hnext]; rfl
    cases d with
    | nil => cases hnext
    | cons x d =>
      by_cases hx : x = '\n'
      · subst hx
        refine .lose (p := [backslash, '\n']) (q := []) (by decide) (by decide) rfl ?_ hinert
          (hd' _)
        rw [show quoted [] = [] from rfl, append_nil hw]
        exact run_newline hm hp
      · have hesc : isEscapable x = true := by simpa [hx] using hnext
        have hxq : x ≠ squote := by
          rintro rfl
          revert hesc
          decide
        refine .lose (p := [backslash, x]) (q := [x]) (Nat.lt_succ_self 1) ?_
          (escape_singleton hxq) ?_ hinert (hd' _)
        · exact (List.sublist_cons_self _ _).count_le _
        · rw [List.cons_append, List.singleton_append, escape_cons_of_ne hsq,
            escape_cons_of_ne hxq]
          exact run_escapable hm hp hesc

theorem requoted_dquote : Requoted s (dquote :: d) r := by
  refine .inr ⟨rfl, fun t ht => ?_⟩
  rw [escape_cons_of_ne (by decide), List.cons_append, run_dquote hm hp] at ht
  have hcount := count_run (a := dquote) ht
  rw [text_enter, List.count_append, count_escape (by decide) (by decide),
    List.count_cons_of_ne (by decide)] at hcount
  rw [List.count_cons_self]
  omega

theorem requoted_backtick : Requoted s (backtick :: d) r := by
  refine .inr ⟨rfl, fun t ht => ?_⟩
  rw [escape_cons_of_ne (by decide), List.cons_append, run_backtick hm hp] at ht
  cases ht

/-- By induction on the length of the text: a backslash may go with the character after it. -/
theorem run_double_escape (hw : s.word = some w) : Requoted s d r := by
  induction hn : d.length using Nat.strongRecOn generalizing d s w with
  | ind n ih =>
  have hshorter (e : List Char) (he : e.length < n) (v : Word) : Requoted (s.append v) e r :=
    ih e.length he (by exact hm) (by exact hp) rfl rfl
  cases d with
  | nil =>
    refine .inl ⟨[], .inl ⟨rfl, rfl⟩, Nat.le_refl _, ?_⟩
    exact run_literal hm hp (by decide)
  | cons c d =>
    have hd := hshorter d (by rw [← hn]; exact Nat.lt_succ_self _)
    by_cases hsq : c = squote
    · subst hsq
      refine .keep (by decide) ?_ (inert_cons_of_literal (by decide)) (hd _)
      exact run_double_squote hm hp
    by_cases hdq : c = dquote
    · exact hdq ▸ requoted_dquote hm hp
    by_cases hbt : c = backtick
    · exact hbt ▸ requoted_backtick hm hp
    by_cases hdollar : c = '$'
    · exact hdollar ▸ requoted_dollar hm hp hd
    by_cases hbs : c = backslash
    · refine hbs ▸ requoted_backslash hm hp hw hd (hshorter _ ?_)
      rw [List.length_tail, ← hn, List.length_cons]
      omega
    · have hlit : literal c = true := by simp [literal, hdq, hbs, hdollar, hbt]
      refine .keep hdq ?_ (inert_cons_of_literal hlit) (hd _)
      rw [escape_cons_of_ne hsq, escape_singleton hsq]
      exact run_literal hm hp hlit

/-- A quoted text after letters, in double quotes. -/
theorem run_literal_quote {letters : List Char} (hletters : letters.all literal = true) :
    (∃ e, (e = d ∧ inert d = true ∨ e.length < d.length ∧ inert d = false) ∧
        e.count dquote ≤ d.count dquote ∧
        s.run (letters ++ quote d ++ r) = (s.append (quoted (letters ++ quote e))).run r) ∨
      inert d = false ∧ ∀ t, s.run (letters ++ quote d ++ r) = some t →
        t.text.count dquote < s.text.count dquote + d.count dquote + r.count dquote := by
  have hall : (letters ++ [squote]).all literal = true := by
    rw [List.all_append, hletters]
    rfl
  have hform : letters ++ quote d ++ r = (letters ++ [squote]) ++ (escape d ++ squote :: r) := by
    simp [quote]
  have hcount : (s.append (quoted (letters ++ [squote]))).text.count dquote =
      s.text.count dquote := by
    rw [count_append, Word.text_quoted, Nat.add_eq_left, List.count_eq_zero]
    intro hmem
    exact absurd (List.all_eq_true.1 hall _ hmem) (by decide)
  rw [hform, run_literals hm hp hall (by simp)]
  obtain ⟨e, he, hle, hrun⟩ | ⟨hi, hlost⟩ :=
    run_double_escape (s := s.append (quoted (letters ++ [squote]))) (d := d) (r := r) hm hp rfl
  · refine .inl ⟨e, he, hle, ?_⟩
    rw [hrun, append_append, ← quoted_append]
    simp [quote]
  · rw [hcount] at hlost
    exact .inr ⟨hi, hlost⟩

end Requoted

end Lexer

/-- The arguments and operators of a text have no characters that it does not have. -/
theorem count_items {a : Char} {cs : List Char} {is : List Item} (ha : a ≠ ' ')
    (h : items cs = some is) : (is.flatMap Item.text).count a ≤ cs.count a := by
  obtain ⟨ts, hts, rfl⟩ := Option.map_eq_some_iff.1 h
  have hcount := Lexer.count_run (a := a) (run_of_tokens hts)
  rw [Lexer.text_prepend, List.count_append] at hcount
  rw [List.flatMap_map]
  simpa [Lexer.start, Lexer.text, Lexer.letters, Word.text, Pending.text, ha.symm] using hcount

end Shell
