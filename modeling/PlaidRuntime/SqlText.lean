import PlaidRuntime.AndOrTree

/-!
# The text of a SQL query

Tokens of a query, its WHERE clause as an expression over comparisons, and three-valued truth.
-/
namespace PlaidRuntime.SqlText
open AndOrTree

inductive Token
  | word (s : String)
  | quoted (s : String)
  | param (s : String)
  | op (s : String)
  | punct (c : Char)
  deriving DecidableEq, Repr

/-- What has been read of a token that may go on. -/
inductive Mode
  | idle
  | word (read : List Char)
  | quoted (read : List Char)
  | param (read : List Char)
  | op (read : List Char)
  deriving DecidableEq, Repr

def isWordChar (c : Char) : Bool := c.isAlphanum || c == '_'

def isOpChar (c : Char) : Bool := c == '=' || c == '!' || c == '<' || c == '>'

/-- A character with which nothing before it goes on. -/
def begin (c : Char) : List Token × Mode :=
  if isWordChar c then ([], .word [c])
  else if isOpChar c then ([], .op [c])
  else if c = ' ' then ([], .idle)
  else if c = '\x60' then ([], .quoted [])
  else if c = '@' then ([], .param [])
  else ([.punct c], .idle)

/-- The token that ends here. -/
def Mode.finish : Mode → List Token
  | .idle => []
  | .word read => [.word (String.ofList read)]
  | .quoted read => [.quoted (String.ofList read)]
  | .param read => [.param (String.ofList read)]
  | .op read => [.op (String.ofList read)]

def Mode.next (m : Mode) (c : Char) : List Token × Mode :=
  match m with
  | .idle => begin c
  | .word read =>
    if isWordChar c then ([], .word (read ++ [c])) else (m.finish ++ (begin c).1, (begin c).2)
  | .param read =>
    if isWordChar c then ([], .param (read ++ [c])) else (m.finish ++ (begin c).1, (begin c).2)
  | .op read =>
    if isOpChar c then ([], .op (read ++ [c])) else (m.finish ++ (begin c).1, (begin c).2)
  | .quoted read => if c = '\x60' then (m.finish, .idle) else ([], .quoted (read ++ [c]))

def lexFrom : Mode → List Char → List Token
  | m, [] => m.finish
  | m, c :: cs => (m.next c).1 ++ lexFrom (m.next c).2 cs

def lex (text : String) : List Token := lexFrom .idle text.toList

def Token.param? : Token → Option String
  | .param s => some s
  | _ => none

/-- The placeholders of named parameters, from left to right. -/
def placeholders (text : String) : List String := (lex text).filterMap Token.param?

inductive Comparison
  | eq
  | ne
  | lt
  | le
  | gt
  | ge
  | like
  | isNull
  | isNotNull
  deriving DecidableEq, Repr

def Comparison.ofOp : String → Option Comparison
  | "=" => some .eq
  | "!=" => some .ne
  | "<" => some .lt
  | "<=" => some .le
  | ">" => some .gt
  | ">=" => some .ge
  | _ => none

/-- A column compared with a placeholder, if the comparison takes a value. -/
structure Atom where
  column : String
  comparison : Comparison
  placeholder : Option String
  deriving DecidableEq, Repr

/-- Comparisons, connectives and parentheses of a condition. -/
def items : List Token → Option (List (Item Atom))
  | [] => some []
  | .punct '(' :: ts => (items ts).map (.lparen :: ·)
  | .punct ')' :: ts => (items ts).map (.rparen :: ·)
  | .word "AND" :: ts => (items ts).map (.and :: ·)
  | .word "OR" :: ts => (items ts).map (.or :: ·)
  | .quoted c :: .word "IS" :: .word "NULL" :: ts => (items ts).map (.atom ⟨c, .isNull, none⟩ :: ·)
  | .quoted c :: .word "IS" :: .word "NOT" :: .word "NULL" :: ts =>
    (items ts).map (.atom ⟨c, .isNotNull, none⟩ :: ·)
  | .quoted c :: .word "LIKE" :: .param p :: ts => (items ts).map (.atom ⟨c, .like, some p⟩ :: ·)
  | .quoted c :: .op o :: .param p :: ts =>
    (Comparison.ofOp o).bind fun comparison =>
      (items ts).map (.atom ⟨c, comparison, some p⟩ :: ·)
  | _ => none

/-- The condition after WHERE. -/
def whereClause (text : String) : Option (Expr Atom) :=
  match (lex text).dropWhile (· ≠ .word "WHERE") with
  | [] => none
  | _ :: ts => (items ts).bind parse

def Comparison.tokens : Comparison → Option String → List Token
  | .eq, p => .op "=" :: p.toList.map .param
  | .ne, p => .op "!=" :: p.toList.map .param
  | .lt, p => .op "<" :: p.toList.map .param
  | .le, p => .op "<=" :: p.toList.map .param
  | .gt, p => .op ">" :: p.toList.map .param
  | .ge, p => .op ">=" :: p.toList.map .param
  | .like, p => .word "LIKE" :: p.toList.map .param
  | .isNull, _ => [.word "IS", .word "NULL"]
  | .isNotNull, _ => [.word "IS", .word "NOT", .word "NULL"]

def Comparison.takesValue : Comparison → Bool
  | .isNull => false
  | .isNotNull => false
  | _ => true

/-- There is a placeholder exactly when the comparison takes a value. -/
def Atom.WellFormed (a : Atom) : Prop := a.placeholder.isSome = a.comparison.takesValue

def itemTokens : Item Atom → List Token
  | .lparen => [.punct '(']
  | .rparen => [.punct ')']
  | .and => [.word "AND"]
  | .or => [.word "OR"]
  | .atom a => .quoted a.column :: a.comparison.tokens a.placeholder

/-- Three-valued truth. -/
inductive Truth
  | no
  | unknown
  | yes
  deriving DecidableEq, Repr

def Truth.rank : Truth → Fin 3
  | .no => 0
  | .unknown => 1
  | .yes => 2

theorem Truth.rank_injective : Function.Injective Truth.rank := by
  intro a b h
  cases a <;> cases b <;> first | rfl | cases h

/-- AND is the smaller truth value and OR the larger one. -/
instance : LinearOrder Truth := LinearOrder.lift' Truth.rank Truth.rank_injective

instance : BoundedOrder Truth where
  top := .yes
  le_top a := by cases a <;> decide
  bot := .no
  bot_le a := by cases a <;> decide

example : Truth.unknown ⊓ .no = .no := by decide

example : Truth.unknown ⊔ .no = .unknown := by decide

section grammar

theorem items_atom {a : Atom} (ha : a.WellFormed) (ts : List Token) :
    items (itemTokens (.atom a) ++ ts) = (items ts).map (.atom a :: ·) := by
  rcases a with ⟨c, comparison, p⟩
  cases comparison <;> cases p <;> first | rfl | cases ha

/-- The tokens of well-formed items are taken apart again. -/
theorem items_tokens {is : List (Item Atom)}
    (h : ∀ a ∈ is.filterMap Item.atom?, a.WellFormed) :
    items (is.flatMap itemTokens) = some is := by
  induction is with
  | nil => rfl
  | cons i is ih =>
    rw [List.flatMap_cons]
    cases i with
    | atom a =>
      rw [List.filterMap_cons, Item.atom?, List.forall_mem_cons] at h
      rw [items_atom h.1, ih h.2]
      rfl
    | _ =>
      simp only [itemTokens, List.cons_append, List.nil_append, items, ih h]
      rfl

theorem params_atom {a : Atom} (ha : a.WellFormed) :
    (itemTokens (.atom a)).filterMap Token.param? = a.placeholder.toList := by
  rcases a with ⟨c, comparison, p⟩
  cases comparison <;> cases p <;> first | rfl | cases ha

/-- Only atoms have placeholders. -/
theorem params_tokens {is : List (Item Atom)}
    (h : ∀ a ∈ is.filterMap Item.atom?, a.WellFormed) :
    (is.flatMap itemTokens).filterMap Token.param? =
      (is.filterMap Item.atom?).flatMap fun a => a.placeholder.toList := by
  induction is with
  | nil => rfl
  | cons i is ih =>
    rw [List.flatMap_cons, List.filterMap_append]
    cases i with
    | atom a =>
      rw [List.filterMap_cons, Item.atom?, List.forall_mem_cons] at h
      rw [params_atom h.1, ih h.2]
      rfl
    | _ => exact ih h

end grammar

/-! Text that is read token by token, whatever comes after it, or whatever comes after it that
does not go on with its last token. -/
section lexing

def Delimited (rest : List Char) : Prop :=
  ∀ c, rest.head? = some c → isWordChar c = false ∧ isOpChar c = false

def Closed (text : String) (ts : List Token) : Prop :=
  ∀ rest, lexFrom .idle (text.toList ++ rest) = ts ++ lexFrom .idle rest

def Lexes (text : String) (ts : List Token) : Prop :=
  ∀ rest, Delimited rest → lexFrom .idle (text.toList ++ rest) = ts ++ lexFrom .idle rest

variable {text text' : String} {ts ts' : List Token}

theorem Closed.lexes (h : Closed text ts) : Lexes text ts := fun rest _ => h rest

theorem Closed.append (h : Closed text ts) (h' : Closed text' ts') :
    Closed (text ++ text') (ts ++ ts') := by
  intro rest
  rw [String.toList_append, List.append_assoc, h, h', List.append_assoc]

theorem Closed.append_lexes (h : Closed text ts) (h' : Lexes text' ts') :
    Lexes (text ++ text') (ts ++ ts') := by
  intro rest hrest
  rw [String.toList_append, List.append_assoc, h, h' rest hrest, List.append_assoc]

theorem Delimited.append {a b : List Char} (ha : Delimited a) (hne : a ≠ []) :
    Delimited (a ++ b) := by
  intro c hc
  cases a with
  | nil => exact absurd rfl hne
  | cons d a => exact ha c hc

theorem Lexes.append (h : Lexes text ts) (hd : Delimited text'.toList) (hne : text'.toList ≠ [])
    (h' : Lexes text' ts') : Lexes (text ++ text') (ts ++ ts') := by
  intro rest hrest
  rw [String.toList_append, List.append_assoc, h _ (hd.append hne), h' rest hrest,
    List.append_assoc]

theorem Lexes.append_closed (h : Lexes text ts) (hd : Delimited text'.toList)
    (hne : text'.toList ≠ []) (h' : Closed text' ts') : Closed (text ++ text') (ts ++ ts') := by
  intro rest
  rw [String.toList_append, List.append_assoc, h _ (hd.append hne), h', List.append_assoc]

theorem Lexes.lex (h : Lexes text ts) : SqlText.lex text = ts := by
  have hd : Delimited [] := fun c hc => by cases hc
  have := h [] hd
  simpa [SqlText.lex, lexFrom, Mode.finish] using this

theorem closed_nil : Closed "" [] := fun _ => rfl

/-- A token goes on as long as the characters do. -/
theorem lexFrom_run (mode : List Char → Mode) {goesOn : Char → Bool}
    (hnext : ∀ read c, (mode read).next c = if goesOn c then ([], mode (read ++ [c]))
      else ((mode read).finish ++ (begin c).1, (begin c).2))
    {w : List Char} (hw : ∀ c ∈ w, goesOn c = true) (read : List Char) {rest : List Char}
    (hrest : ∀ c, rest.head? = some c → goesOn c = false) :
    lexFrom (mode read) (w ++ rest) = (mode (read ++ w)).finish ++ lexFrom .idle rest := by
  induction w generalizing read with
  | nil =>
    cases rest with
    | nil => simp [lexFrom, Mode.finish]
    | cons c cs =>
      rw [List.nil_append, List.append_nil, lexFrom, hnext, hrest c rfl, lexFrom]
      simp [Mode.next]
  | cons c w ih =>
    have hi := ih (fun d hd => hw d (List.mem_cons_of_mem c hd)) (read ++ [c])
    rw [List.cons_append, lexFrom, hnext, hw c List.mem_cons_self, if_pos rfl, List.nil_append,
      hi, List.append_assoc]
    rfl

theorem lexFrom_quoted {w : List Char} (hw : ∀ c ∈ w, c ≠ '\x60') (read rest : List Char) :
    lexFrom (.quoted read) (w ++ '\x60' :: rest) =
      .quoted (String.ofList (read ++ w)) :: lexFrom .idle rest := by
  induction w generalizing read with
  | nil => simp [lexFrom, Mode.next, Mode.finish]
  | cons c w ih =>
    have hc := hw c List.mem_cons_self
    have hi := ih (fun d hd => hw d (List.mem_cons_of_mem c hd)) (read ++ [c])
    simpa [lexFrom, Mode.next, hc] using hi

/-- All characters of a name can stand in a word. -/
def IsName (s : String) : Prop := ∀ c ∈ s.toList, isWordChar c = true

theorem lexes_word {w : String} (hw : IsName w) (hne : w.toList ≠ []) : Lexes w [.word w] := by
  intro rest hrest
  cases h : w.toList with
  | nil => exact absurd h hne
  | cons c cs =>
    rw [IsName, h] at hw
    have hc := hw c List.mem_cons_self
    have hread := lexFrom_run Mode.word (fun _ _ => rfl)
      (fun d hd => hw d (List.mem_cons_of_mem c hd)) [c] fun d hd => (hrest d hd).1
    have hself : String.ofList ([c] ++ cs) = w := by
      rw [List.singleton_append, ← h, String.ofList_toList]
    rw [Mode.finish, hself] at hread
    simpa [lexFrom, Mode.next, SqlText.begin, hc] using hread

theorem lexes_param {w : String} (hw : IsName w) : Lexes ("@" ++ w) [.param w] := by
  intro rest hrest
  have hread := lexFrom_run Mode.param (fun _ _ => rfl) hw [] fun d hd =>
    (hrest d hd).1
  rw [List.nil_append, Mode.finish, String.ofList_toList] at hread
  simpa [lexFrom, Mode.next, SqlText.begin, isWordChar, isOpChar] using hread

theorem closed_quoted {w : String} (hw : IsName w) : Closed ("`" ++ w ++ "`") [.quoted w] := by
  intro rest
  have hread := lexFrom_quoted (fun c hc he => by
    have hc := hw c hc
    rw [he] at hc
    exact absurd hc (by decide)) [] rest
  rw [List.nil_append, String.ofList_toList] at hread
  simpa [lexFrom, Mode.next, SqlText.begin, isWordChar, isOpChar] using hread

/-- The texts after the first one, each with the separator before it. -/
def furtherText (sep : String) : List String → String
  | [] => ""
  | s :: ss => sep ++ s ++ furtherText sep ss

/-- Texts with a separator between them. -/
def joinText (sep : String) : List String → String
  | [] => ""
  | s :: ss => s ++ furtherText sep ss

section joining
variable {sep : String} {sepTokens : List Token} {parts : List String} {read : List (List Token)}

theorem lexes_furtherText (hc : Closed sep sepTokens) (hd : Delimited sep.toList)
    (hne : sep.toList ≠ []) (hparts : List.Forall₂ Lexes parts read) (h : Lexes text ts) :
    Lexes (text ++ furtherText sep parts) (ts ++ read.flatMap fun l => sepTokens ++ l) := by
  induction hparts generalizing text ts with
  | nil => simpa [furtherText] using h
  | @cons part l parts read hpart _ ih =>
    have hnext := hc.append_lexes hpart
    have hdelim : Delimited (sep ++ part).toList := by
      rw [String.toList_append]
      exact hd.append hne
    have hne' : (sep ++ part).toList ≠ [] := by
      rw [String.toList_append]
      exact List.append_ne_nil_of_left_ne_nil hne _
    have hi := ih (h.append hdelim hne' hnext)
    rw [furtherText, List.flatMap_cons]
    simpa [String.append_assoc] using hi

/-- Joined texts are read one after the other. -/
theorem lexes_joinText (hc : Closed sep sepTokens) (hd : Delimited sep.toList)
    (hne : sep.toList ≠ []) (hparts : List.Forall₂ Lexes parts read) :
    Lexes (joinText sep parts) (joined sepTokens read) := by
  cases hparts with
  | nil => exact closed_nil.lexes
  | cons hpart hparts => exact lexes_furtherText hc hd hne hparts hpart

end joining

/-- A condition whose tokens are those of an infix form is found behind the rest of a query. -/
theorem whereClause_of_lex {select : List Token} {is : List (Item Atom)}
    (hselect : .word "WHERE" ∉ select)
    (hlex : SqlText.lex text = select ++ .word "WHERE" :: is.flatMap itemTokens)
    (his : ∀ a ∈ is.filterMap Item.atom?, a.WellFormed) : whereClause text = parse is := by
  have hdrop : (SqlText.lex text).dropWhile (· ≠ .word "WHERE") =
      .word "WHERE" :: is.flatMap itemTokens := by
    rw [hlex, List.dropWhile_append_of_pos]
    · exact List.dropWhile_cons_of_neg (by simp)
    · intro t ht
      exact decide_eq_true fun he => hselect (he ▸ ht)
  rw [whereClause, hdrop]
  simp only [items_tokens his, Option.bind_some]

theorem placeholders_of_lex {select : List Token} {is : List (Item Atom)}
    (hselect : select.filterMap Token.param? = [])
    (hlex : SqlText.lex text = select ++ .word "WHERE" :: is.flatMap itemTokens)
    (his : ∀ a ∈ is.filterMap Item.atom?, a.WellFormed) :
    placeholders text = (is.filterMap Item.atom?).flatMap fun a => a.placeholder.toList := by
  rw [placeholders, hlex, List.filterMap_append, hselect, List.nil_append, ← params_tokens his]
  rfl

end lexing
end PlaidRuntime.SqlText
