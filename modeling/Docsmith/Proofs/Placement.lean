/-
Where the declarations of a Python file stand. Each starts on a line of its own, with the keyword that
opens it, and the body of one starts before the next one does (`spread_parse`): so what is put in
before the body of a later declaration moves neither an earlier one nor its body.
-/
import Docsmith.Assistant.Declaration
import Docsmith.Proofs.Scanning
import Docsmith.Syntax.Statement

namespace Docsmith.Assistant

open List Syntax
open Rule (suffix_of_run)

/-! ## The declarations of a body -/

theorem perm_joinLevels (xs ys : List (List Stmt)) :
    ((joinLevels xs ys).flatten).Perm (xs.flatten ++ ys.flatten) := by
  fun_induction joinLevels xs ys with
  | case1 ys => simp
  | case2 xs _ => simp
  | case3 x xs y ys ih =>
    simp only [flatten_cons, append_assoc]
    refine Perm.append_left x (.trans (ih.append_left y) ?_)
    rw [← append_assoc, ← append_assoc]
    exact perm_append_comm.append_right _

/-- The declarations among statements that are given by depth. -/
def declarationsIn (ls : List (List Stmt)) : List Declaration :=
  ls.flatten.filterMap Declaration.ofStmt?

theorem perm_declarationsIn (xs ys : List (List Stmt)) :
    (declarationsIn (joinLevels xs ys)).Perm (declarationsIn xs ++ declarationsIn ys) := by
  rw [declarationsIn, declarationsIn, declarationsIn, ← filterMap_append]
  exact (perm_joinLevels xs ys).filterMap _

def formDeclarations (f : Form) : List Declaration := declarationsIn (formLevels f)

theorem perm_declarations_cons (s : Stmt) (rest : List Stmt) :
    (declarations (s :: rest)).Perm
      ((Declaration.ofStmt? s).toList ++ formDeclarations s.form ++ declarations rest) := by
  refine (perm_declarationsIn (levels s) (bodyLevels rest)).trans (.append_right _ (.of_eq ?_))
  obtain ⟨line, endLine, form⟩ := s
  rw [levels, declarationsIn, flatten_cons, filterMap_append, formDeclarations,
    declarationsIn, filterMap_cons]
  cases Declaration.ofStmt? ⟨line, endLine, form⟩ <;> rfl

theorem perm_declarations_append (xs ys : List Stmt) :
    (declarations (xs ++ ys)).Perm (declarations xs ++ declarations ys) := by
  induction xs with
  | nil => exact .refl _
  | cons x xs ih =>
    refine (perm_declarations_cons x (xs ++ ys)).trans ?_
    refine .trans ?_ ((perm_declarations_cons x xs).symm.append_right _)
    rw [append_assoc _ (declarations xs)]
    exact ih.append_left _

theorem perm_declarations_singleton {line endLine : Nat} {f : Form}
    (h : Declaration.ofStmt? ⟨line, endLine, f⟩ = none) :
    (declarations [⟨line, endLine, f⟩]).Perm (formDeclarations f) := by
  have := perm_declarations_cons ⟨line, endLine, f⟩ []
  rw [h] at this
  simpa [declarations, bodyLevels] using this

theorem perm_handlers (hs : List Handler) :
    (declarationsIn (handlerLevels hs)).Perm (hs.flatMap fun h => declarations h.body) := by
  induction hs with
  | nil => exact .refl _
  | cons h hs ih =>
    obtain ⟨type, name, body⟩ := h
    exact (perm_declarationsIn _ _).trans (.append_left _ ih)

theorem perm_cases (cs : List Case) :
    (declarationsIn (caseLevels cs)).Perm (cs.flatMap fun c => declarations c.body) := by
  induction cs with
  | nil => exact .refl _
  | cons c cs ih =>
    obtain ⟨shape, guard, body⟩ := c
    exact (perm_declarationsIn _ _).trans (.append_left _ ih)

/-! ## Declarations down the lines of a file -/

/-- The keywords that a declaration can start with. -/
def Declaration.openers (d : Declaration) : List String :=
  if d.isType then ["class"] else ["def", "async"]

/-- Two declarations, of which one starts, body and all, before or where the other one starts. -/
def Apart (d e : Declaration) : Prop :=
  d.line < e.line ∧ d.bodyLine ≤ e.line ∨ e.line < d.line ∧ e.bodyLine ≤ d.line

instance : Std.Symm Apart := ⟨fun _ _ => Or.symm⟩

/-- Declarations in the lines from `lo` on and before `hi`, each on a line that a token for it
starts. -/
structure Spread (all : List Token) (lo hi : Nat) (ds : List Declaration) : Prop where
  within : ∀ d ∈ ds, lo ≤ d.line ∧ d.line ≤ d.bodyLine ∧ d.bodyLine < hi
  opened : ∀ d ∈ ds, ∃ t ∈ all, t.line = d.line ∧ ∃ word ∈ d.openers, t.lexeme = .keyword word
  apart : ds.Pairwise Apart

namespace Spread

variable {all : List Token} {lo lo' mid mid' hi hi' : Nat} {ds es : List Declaration}

theorem nil : Spread all lo hi [] := ⟨by simp, by simp, .nil⟩

theorem mono (h : Spread all lo hi ds) (hlo : lo' ≤ lo) (hhi : hi ≤ hi') : Spread all lo' hi' ds :=
  ⟨fun d hd => by have := h.within d hd; omega, h.opened, h.apart⟩

theorem perm (h : Spread all lo hi ds) (hds : es.Perm ds) : Spread all lo hi es :=
  ⟨fun d hd => h.within d (hds.mem_iff.1 hd), fun d hd => h.opened d (hds.mem_iff.1 hd),
    h.apart.perm hds.symm Or.symm⟩

theorem append (h : Spread all lo mid ds) (h' : Spread all mid' hi es) (hmid : mid ≤ mid')
    (hlo : lo ≤ mid') (hhi : mid ≤ hi) : Spread all lo hi (ds ++ es) := by
  refine ⟨fun d hd => ?_, fun d hd => ?_, pairwise_append.2 ⟨h.apart, h'.apart, ?_⟩⟩
  · obtain hd | hd := mem_append.1 hd
    · have := h.within d hd
      omega
    · have := h'.within d hd
      omega
  · exact (mem_append.1 hd).elim (h.opened d) (h'.opened d)
  · intro d hd e he
    have := h.within d hd
    have := h'.within e he
    exact .inl (by omega)

end Spread

/-! ## What rules leave ahead -/

end Docsmith.Assistant

namespace Docsmith.Syntax

namespace Rule

variable {τ α β : Type} {P : List τ → Prop} {r : Rule τ α}

/-- A rule that, where `P` holds of what is ahead, leaves what `Q` holds of. -/
def Ensures (P : List τ → Prop) (r : Rule τ α) (Q : α → List τ → Prop) : Prop :=
  ∀ ts x, P ts → r.run ts = some x → Q x.1 x.2

theorem bind_some {f : α → Rule τ β} {ts : List τ} {x : β × List τ} :
    (r >>= f).run ts = some x ↔ ∃ y, r.run ts = some y ∧ (f y.1).run y.2 = some x :=
  Option.bind_eq_some_iff

namespace Ensures

variable {Q : α → List τ → Prop} {S : β → List τ → Prop}

theorem bind {f : α → Rule τ β} (hr : Ensures P r Q) (hf : ∀ a, Ensures (Q a) (f a) S) :
    Ensures P (r >>= f) S := by
  intro ts x hts h
  obtain ⟨y, hy, h⟩ := bind_some.1 h
  exact hf y.1 y.2 x (hr ts y hts hy) h

theorem pure {a : α} (h : ∀ ts, P ts → Q a ts) : Ensures P (Pure.pure a) Q := by
  intro ts x hts hx
  cases hx
  exact h ts hts

theorem failure : Ensures P (Alternative.failure : Rule τ α) Q := fun _ _ _ h => by cases h

theorem map {f : α → β} (h : Ensures P r fun a => S (f a)) : Ensures P (f <$> r) S :=
  bind h fun _ => pure fun _ => id

theorem frame (h : ∀ ts rest, rest <:+ ts → P ts → P rest) : Ensures P r fun _ => P :=
  fun ts _ hts hx => h ts _ (r.suffix_of_run hx) hts

theorem many {step : Rule τ (Option α)} {Q : List α → List τ → Prop}
    (h : ∀ as, Ensures (Q as) step fun o => Q (as ++ o.toList)) :
    Ensures (Q []) (Rule.many step) Q := by
  have main (room : Nat) : ∀ as, Ensures (Q as) (manyUpTo step room) fun bs => Q (as ++ bs) := by
    induction room with
    | zero => exact fun _ => failure
    | succ room ih =>
      intro as
      refine bind (h as) fun o => ?_
      cases o with
      | none => exact pure fun _ => id
      | some a =>
        refine bind (ih _) fun bs => pure fun ts hts => ?_
        simpa using hts
  exact fun ts x hts hx => main (ts.length + 1) [] ts x hts hx

end Ensures

end Rule

theorem Ordered.of_suffix {top : Nat} {ts rest : List Token} (h : Ordered top ts)
    (hrest : rest <:+ ts) : Ordered top rest ∧ firstLine top ts ≤ firstLine top rest := by
  induction ts with
  | nil => rw [List.suffix_nil.1 hrest]; exact ⟨h, Nat.le_refl _⟩
  | cons t ts ih =>
    obtain rfl | hrest := List.suffix_cons_iff.1 hrest
    · exact ⟨h, Nat.le_refl _⟩
    · obtain ⟨hline, hnext, -, -, hts⟩ := h
      obtain ⟨hordered, hle⟩ := ih hts hrest
      exact ⟨hordered, by rw [firstLine_cons]; omega⟩

end Docsmith.Syntax

namespace Docsmith.Assistant

open List Syntax Rule Grammar

/-- How far a rule has come: `pre` holds the declarations behind, from line `lo` on; `past` says that
the line is behind as well. -/
structure At (all : List Token) (top lo : Nat) (pre : List Declaration) (past : Prop)
    (ts : List Token) : Prop where
  ordered : Ordered top ts
  suffix : ts <:+ all
  lo_le : lo ≤ firstLine top ts
  lo_lt : past → lo < firstLine top ts
  spread : Spread all lo (firstLine top ts) pre

variable {all : List Token} {top lo : Nat} {pre : List Declaration} {past : Prop}

theorem At.of_suffix {ts rest : List Token} (h : At all top lo pre past ts) (hrest : rest <:+ ts) :
    At all top lo pre past rest := by
  obtain ⟨hordered, hle⟩ := h.ordered.of_suffix hrest
  exact ⟨hordered, hrest.trans h.suffix, h.lo_le.trans hle, fun hp => (h.lo_lt hp).trans_le hle,
    h.spread.mono (Nat.le_refl _) hle⟩

theorem At.perm {ts : List Token} {ds : List Declaration} (h : At all top lo pre past ts)
    (hds : ds.Perm pre) : At all top lo ds past ts :=
  ⟨h.ordered, h.suffix, h.lo_le, h.lo_lt, h.spread.perm hds⟩

variable {α : Type} {r : Passage Form} {x : Unit × List Token} {body : List Stmt} {p : Phrase α}

theorem skips {r : Passage α} :
    Ensures (At all top lo pre past) r fun _ => At all top lo pre past :=
  .frame fun _ _ hrest h => h.of_suffix hrest

/-- Statements in the lines from `lo` on and before `hi`. Declarations among them lie no higher than
the first statement does. -/
def Laid (all : List Token) (lo hi : Nat) (body : List Stmt) : Prop :=
  ∃ s rest, body = s :: rest ∧ lo ≤ s.line ∧ s.line < hi ∧ Spread all s.line hi (declarations body)

theorem Laid.append {mid hi : Nat} {xs ys : List Stmt} (h : Laid all lo mid xs) (hmid : mid ≤ hi)
    (h' : ys = [] ∨ Laid all mid hi ys) : Laid all lo hi (xs ++ ys) := by
  obtain ⟨s, rest, rfl, hlo, hlt, hspread⟩ := h
  refine ⟨s, rest ++ ys, rfl, hlo, hlt.trans_le hmid, .perm ?_ (perm_declarations_append _ _)⟩
  obtain rfl | ⟨s', rest', rfl, hlo', hlt', hspread'⟩ := h'
  · rw [show declarations [] = [] from rfl, append_nil]
    exact hspread.mono (Nat.le_refl _) hmid
  · exact hspread.append hspread' hlo' (by omega) hmid

/-- A rule for blocks: statements, in which all declarations lie below the line it starts on. -/
def LaysBlock (all : List Token) (top : Nat) (block : Passage (List Stmt)) : Prop :=
  ∀ ts x, Ordered top ts → ts <:+ all → block.run ts = some x →
    Laid all (firstLine top ts) (firstLine top x.2) x.1 ∧
      ∀ d ∈ declarations x.1, firstLine top ts < d.line

variable {g : Grammar} {block : Passage (List Stmt)} {shape : Phrase Shape}

theorem LaysBlock.ensures (h : LaysBlock all top block) :
    Ensures (At all top lo pre past) block fun body =>
      At all top lo (pre ++ declarations body) True := by
  intro ts x hts hx
  obtain ⟨⟨s, rest, hbody, hlo, hlt, hspread⟩, -⟩ := h ts x hts.ordered hts.suffix hx
  have hrest := hts.of_suffix (block.suffix_of_run hx)
  have := hts.lo_le
  exact ⟨hrest.ordered, hrest.suffix, hrest.lo_le, fun _ => by omega,
    hts.spread.append hspread hlo (by omega) (hts.ordered.of_suffix (block.suffix_of_run hx)).2⟩

theorem ensures_many {step : Passage (Option α)} {D : α → List Declaration}
    (h : ∀ pre, Ensures (At all top lo pre past) step fun o =>
      At all top lo (pre ++ o.toList.flatMap D) past) :
    Ensures (At all top lo pre past) (many step) fun xs =>
      At all top lo (pre ++ xs.flatMap D) past := by
  have hstep (xs : List α) : Ensures (At all top lo (pre ++ xs.flatMap D) past) step fun o =>
      At all top lo (pre ++ (xs ++ o.toList).flatMap D) past := by
    simpa only [flatMap_append, append_assoc] using h (pre ++ xs.flatMap D)
  have hmany := Ensures.many hstep
  simpa only [flatMap_nil, append_nil] using hmany

/-- How far a rule has come with a form, which starts on line `lo`. -/
def AtForm (all : List Token) (top lo : Nat) (f : Form) (ts : List Token) : Prop :=
  ∀ line endLine, At all top lo (declarations [⟨line, endLine, f⟩]) True ts

theorem ensures_form {f : Form} (hf : ∀ line endLine, Declaration.ofStmt? ⟨line, endLine, f⟩ = none)
    (h : (formDeclarations f).Perm pre) :
    Ensures (At all top lo pre True) (pure f) (AtForm all top lo) :=
  .pure fun _ hts line endLine => hts.perm ((perm_declarations_singleton (hf line endLine)).trans h)

theorem ensures_spanned {r : Passage α} {P : List Token → Prop} {Q : α → List Token → Prop}
    (h : Ensures P r Q) : Ensures P (Passage.spanned r) fun x => Q x.1 := by
  intro ts x hts hx
  obtain ⟨-, ⟨⟩, hx⟩ := bind_some.1 hx
  obtain ⟨y, hy, hx⟩ := bind_some.1 hx
  obtain ⟨-, ⟨⟩, ⟨⟩⟩ := bind_some.1 hx
  exact h ts y hts hy

theorem perm_nested (endLine : Nat) (more : List (Nat × Expr × List Stmt)) (otherwise : List Stmt) :
    (declarations (more.foldr
        (fun x rest => [⟨x.1, endLine, .branch x.2.1 x.2.2 rest⟩]) otherwise)).Perm
      (more.flatMap (fun x => declarations x.2.2) ++ declarations otherwise) := by
  induction more with
  | nil => exact .refl _
  | cons x more ih =>
    refine (perm_declarations_singleton rfl).trans ((perm_declarationsIn _ _).trans ?_)
    rw [flatMap_cons, append_assoc]
    exact ih.append_left _

theorem lexeme_some {l : Lexeme} {ts : List Token} (h : (Passage.lexeme l).run ts = some x) :
    ∃ t, ts = t :: x.2 ∧ t.lexeme = l := by
  cases ts with
  | nil => cases h
  | cons t ts =>
    obtain ⟨y, ⟨⟩, hy⟩ := bind_some.1 h
    dsimp only at hy
    split at hy
    · next hlex =>
      cases hy
      exact ⟨t, rfl, hlex⟩
    · cases hy

theorem lt_of_newline {ts : List Token} (hts : Ordered top ts)
    (h : Passage.newline.run ts = some x) : firstLine top ts < firstLine top x.2 := by
  obtain ⟨t, rfl, hlex⟩ := lexeme_some h
  have := hts.1
  have := hts.2.2.1 hlex
  rw [firstLine_cons]
  omega

theorem ensures_newline :
    Ensures (At all top lo pre past) Passage.newline fun _ => At all top lo pre True := by
  intro ts x hts hx
  have hlt := lt_of_newline hts.ordered hx
  have := hts.lo_le
  have hrest := hts.of_suffix (Passage.newline.suffix_of_run hx)
  exact ⟨hrest.ordered, hrest.suffix, hrest.lo_le, fun _ => by omega, hrest.spread⟩

section Forms

variable (hblock : LaysBlock all top block)
include hblock

theorem ensures_colonBlock :
    Ensures (At all top lo pre past) (colonBlock block) fun body =>
      At all top lo (pre ++ declarations body) True :=
  .bind skips fun _ => hblock.ensures

theorem ensures_optionalBlock {word : String} :
    Ensures (At all top lo pre True) (optionalBlock block word) fun body =>
      At all top lo (pre ++ declarations body) True := by
  refine .bind skips fun isNext => ?_
  split
  · exact ensures_colonBlock hblock
  · exact .pure fun ts hts => hts.perm (.of_eq (append_nil _))

theorem ensures_forForm {isAsync : Bool} :
    Ensures (At all top lo [] False) (forForm g block isAsync) (AtForm all top lo) := by
  refine .bind skips fun head => .bind (ensures_colonBlock hblock) fun body => ?_
  refine .bind (ensures_optionalBlock hblock) fun otherwise => ?_
  exact ensures_form (fun _ _ => rfl) (perm_declarationsIn _ _)

theorem ensures_withForm {isAsync : Bool} :
    Ensures (At all top lo [] False) (withForm g block isAsync) (AtForm all top lo) := by
  refine .bind skips fun items => .bind hblock.ensures fun body => ?_
  exact ensures_form (fun _ _ => rfl) (.refl _)

theorem ensures_tested :
    Ensures (At all top lo pre past) (tested g block) fun x =>
      At all top lo (pre ++ declarations x.2.2) True := by
  refine .bind (ensures_spanned (Q := fun x => At all top lo (pre ++ declarations x.2) True) ?_)
    fun x => .pure fun _ => id
  exact .bind skips fun _ => .bind (ensures_colonBlock hblock) fun _ => .pure fun _ => id

theorem ensures_whileForm :
    Ensures (At all top lo [] False) (whileForm g block) (AtForm all top lo) := by
  refine .bind (ensures_tested hblock) fun x => .bind (ensures_optionalBlock hblock) fun _ => ?_
  exact ensures_form (fun _ _ => rfl) (perm_declarationsIn _ _)

theorem ensures_branchForm :
    Ensures (At all top lo [] False) (branchForm g block) (AtForm all top lo) := by
  refine .bind (ensures_spanned (Q := fun x => At all top lo (declarations x.1.2.2 ++
    x.2.1.flatMap (fun y => declarations y.2.2) ++ declarations x.2.2) True) ?_) fun x => ?_
  · refine .bind (ensures_tested hblock) fun first => ?_
    refine .bind (ensures_many fun pre => ?_) fun more =>
      .bind (ensures_optionalBlock hblock) fun _ => .pure fun _ => id
    refine .bind skips fun isNext => ?_
    split
    · refine .map fun ts y hts hy => ?_
      simpa using ensures_tested hblock ts y hts hy
    · exact .pure fun ts hts => hts.perm (.of_eq (append_nil _))
  · refine ensures_form (fun _ _ => rfl) ((perm_declarationsIn _ _).trans ?_)
    rw [append_assoc]
    exact .append_left _ (perm_nested _ _ _)

theorem ensures_handler :
    Ensures (At all top lo pre past) (handler g block) fun x =>
      At all top lo (pre ++ declarations x.2.body) True :=
  .bind skips fun _ => .bind (ensures_colonBlock hblock) fun _ => .pure fun _ => id

theorem ensures_elseOf {handlers : List (Bool × Handler)} :
    Ensures (At all top lo pre True) (elseOf block handlers) fun body =>
      At all top lo (pre ++ declarations body) True := by
  rw [elseOf]
  split
  · exact .pure fun ts hts => hts.perm (.of_eq (append_nil _))
  · exact ensures_optionalBlock hblock

theorem ensures_tryForm :
    Ensures (At all top lo [] False) (tryForm g block) (AtForm all top lo) := by
  refine .bind skips fun _ => .bind (ensures_colonBlock hblock) fun body => ?_
  refine .bind (ensures_many (D := fun h => declarations h.2.body) fun pre => ?_) fun handlers => ?_
  · refine .bind skips fun isNext => ?_
    split
    · refine .map fun ts y hts hy => ?_
      simpa using ensures_handler hblock ts y hts hy
    · exact .pure fun ts hts => hts.perm (.of_eq (append_nil _))
  · refine .bind skips fun _ => .bind (ensures_elseOf hblock) fun otherwise => .bind skips fun _ => ?_
    refine .bind skips fun _ => .bind (ensures_optionalBlock hblock) fun final => ?_
    refine ensures_form (fun _ _ => rfl) ((perm_declarationsIn _ _).trans ?_)
    simp only [nil_append, append_assoc]
    refine .append_left _ ((perm_declarationsIn _ _).trans (.append ?_ (perm_declarationsIn _ _)))
    have hperm := perm_handlers (handlers.map Prod.snd)
    rw [flatMap_map] at hperm
    exact hperm

theorem ensures_caseRule :
    Ensures (At all top lo pre past) (caseRule g block shape) fun c =>
      At all top lo (pre ++ declarations c.body) True :=
  .bind skips fun _ => .bind (ensures_colonBlock hblock) fun _ => .pure fun _ => id

theorem ensures_matchForm :
    Ensures (At all top lo [] False) (matchForm g block shape) (AtForm all top lo) := by
  refine .bind skips fun e => .bind ensures_newline fun _ => .bind skips fun _ => ?_
  refine .bind (ensures_many (D := fun c => declarations c.body) fun pre => ?_) fun cases => ?_
  · refine .bind skips fun next => ?_
    split
    · exact .pure fun ts hts => hts.perm (.of_eq (append_nil _))
    · refine .map fun ts y hts hy => ?_
      simpa using ensures_caseRule hblock ts y hts hy
  · refine .bind skips fun _ => .bind skips fun _ => ?_
    exact ensures_form (fun _ _ => rfl) (perm_cases cases)

end Forms

/-! ## Forms with their lines -/

variable {ts rest mid : List Token}

theorem Laid.mono {lo' hi : Nat} (h : Laid all lo hi body) (hlo : lo' ≤ lo) :
    Laid all lo' hi body := by
  obtain ⟨s, rest, hbody, hle, hs⟩ := h
  exact ⟨s, rest, hbody, hlo.trans hle, hs⟩

/-- A rule for statements, all in the lines that it takes. -/
def LaysBody (all : List Token) (top : Nat) (r : Passage (List Stmt)) : Prop :=
  ∀ ts x, Ordered top ts → ts <:+ all → r.run ts = some x →
    Laid all (firstLine top ts) (firstLine top x.2) x.1

/-- A rule for a form, which is a statement in the lines that the rule takes. -/
def LaysForm (all : List Token) (top : Nat) (r : Passage Form) : Prop :=
  ∀ ts x, Ordered top ts → ts <:+ all → r.run ts = some x →
    ∀ endLine, Laid all (firstLine top ts) (firstLine top x.2) [⟨firstLine top ts, endLine, x.1⟩]

theorem LaysBody.bind {r : Passage α} {f : α → Passage (List Stmt)}
    (h : ∀ a, LaysBody all top (f a)) : LaysBody all top (r >>= f) := by
  intro ts x hts hall hx
  obtain ⟨y, hy, hx⟩ := bind_some.1 hx
  have hsuffix := r.suffix_of_run hy
  obtain ⟨hordered, hle⟩ := hts.of_suffix hsuffix
  exact (h y.1 y.2 x hordered (hsuffix.trans hall) hx).mono hle

theorem laid_of_ensures
    (h : ∀ lo, Ensures (At all top lo [] False) r (AtForm all top lo)) (hts : Ordered top ts)
    (hall : ts <:+ all) (hmid : mid <:+ ts) {x : Form × List Token} (hx : r.run mid = some x)
    (endLine : Nat) :
    Laid all (firstLine top ts) (firstLine top x.2) [⟨firstLine top ts, endLine, x.1⟩] := by
  have hstart : At all top (firstLine top ts) [] False ts :=
    ⟨hts, hall, Nat.le_refl _, False.elim, .nil⟩
  have hat := h (firstLine top ts) mid x (hstart.of_suffix hmid) hx (firstLine top ts) endLine
  exact ⟨_, [], rfl, Nat.le_refl _, hat.lo_lt trivial, hat.spread⟩

theorem LaysForm.of_ensures
    (h : ∀ lo, Ensures (At all top lo [] False) r (AtForm all top lo)) : LaysForm all top r :=
  fun _ _ hts hall hx => laid_of_ensures h hts hall suffix_rfl hx

theorem located_some {x : Stmt × List Token} (h : (located r).run ts = some x) :
    ∃ endLine y, r.run ts = some y ∧ x = (⟨firstLine 0 ts, endLine, y.1⟩, y.2) := by
  obtain ⟨y, hy, ⟨⟩⟩ := bind_some.1 h
  obtain ⟨-, ⟨⟩, hy⟩ := bind_some.1 hy
  obtain ⟨z, hz, hy⟩ := bind_some.1 hy
  obtain ⟨-, ⟨⟩, ⟨⟩⟩ := bind_some.1 hy
  exact ⟨_, z, hz, rfl⟩

theorem firstLine_zero (hrest : rest <:+ ts) (h : firstLine top ts < firstLine top rest) :
    firstLine 0 ts = firstLine top ts := by
  cases ts with
  | nil =>
    rw [suffix_nil.1 hrest] at h
    omega
  | cons t ts => rfl

theorem LaysForm.located (h : LaysForm all top r) :
    LaysBody all top ((fun s => [s]) <$> located r) := by
  intro ts x hts hall hx
  obtain ⟨y, hy, ⟨⟩⟩ := bind_some.1 hx
  obtain ⟨endLine, z, hz, rfl⟩ := located_some hy
  have hlaid := h ts z hts hall hz endLine
  obtain ⟨s, rest, hs, hlo, hlt, hspread⟩ := hlaid
  rw [firstLine_zero (r.suffix_of_run hz) (hlo.trans_lt hlt)]
  exact ⟨s, rest, hs, hlo, hlt, hspread⟩

/-- A declaration, which starts on the first line and has its body from a block. -/
theorem laid_declaration (hblock : LaysBlock all top block) (hts : Ordered top ts) (hall : ts <:+ all)
    (hmid : mid <:+ ts) (hbody : block.run mid = some (body, rest)) {s : Stmt}
    {d : Declaration} (hs : s.line = firstLine top ts) (hd : Declaration.ofStmt? s = some d)
    (hline : d.line = s.line) (hfirst : ∀ h tl, body = h :: tl → d.bodyLine = h.line)
    (hform : formDeclarations s.form = declarations body)
    (hopened : ∃ t ∈ all, t.line = d.line ∧ ∃ word ∈ d.openers, t.lexeme = .keyword word) :
    Laid all (firstLine top ts) (firstLine top rest) [s] := by
  obtain ⟨hordered, hle⟩ := hts.of_suffix hmid
  obtain ⟨⟨h, tl, hh, hlo, hlt, hspread⟩, hbelow⟩ := hblock mid _ hordered (hmid.trans hall) hbody
  dsimp only at hh hlt hspread hbelow
  have hbodyLine := hfirst h tl hh
  refine ⟨s, [], rfl, Nat.le_of_eq hs.symm, by omega, .perm ?_ (perm_declarations_cons s [])⟩
  rw [hd, hform, show declarations [] = [] from rfl, append_nil]
  refine ⟨forall_mem_cons.2 ⟨by omega, fun e he => ?_⟩,
    forall_mem_cons.2 ⟨hopened, hspread.opened⟩,
    pairwise_cons.2 ⟨fun e he => .inl ?_, hspread.apart⟩⟩
  · have := hspread.within e he
    omega
  · have := hspread.within e he
    have := hbelow e he
    omega

/-- A phrase that takes a keyword first. -/
def OpensWith {α : Type} (word : String) (p : Phrase α) : Prop :=
  ∀ ws x, p.run ws = some x → ws.head?.map (·.lexeme) = some (.keyword word)

theorem OpensWith.bind {β : Type} {word : String} {f : α → Phrase β} (h : OpensWith word p) :
    OpensWith word (p >>= f) := by
  intro ws x hx
  obtain ⟨y, hy, -⟩ := bind_some.1 hx
  exact h ws y hy

theorem opensWith_keyword (word : String) : OpensWith word (Phrase.keyword word) := by
  intro ws x h
  obtain ⟨⟨isNext, rest⟩, hnext, h⟩ := bind_some.1 h
  cases isNext with
  | false => cases h
  | true =>
    obtain ⟨⟨isAhead, rest'⟩, hahead, hnext⟩ := bind_some.1 hnext
    cases isAhead with
    | false => cases hnext
    | true =>
      rcases ws with _ | ⟨⟨lex, isComposed⟩, ws⟩
      · cases hahead
      · cases lex with
        | keyword s =>
          have hs : (s == word) = true := (Prod.mk.inj (Option.some.inj hahead)).1
          rw [eq_of_beq hs]
          rfl
        | _ => cases hahead

theorem ofPhrase_some {x : α × List Token} (h : (Passage.ofPhrase p).run ts = some x) :
    ∃ y, p.run (wordsOf ts) = some y ∧ (y.1, ts.drop ((wordsOf ts).length - y.2.length)) = x :=
  Option.map_eq_some_iff.1 h

theorem OpensWith.head {word : String} (h : OpensWith word p) {x : α × List Token}
    (hx : (Passage.ofPhrase p).run ts = some x) :
    ∃ t ∈ ts, t.line = firstLine top ts ∧ t.lexeme = .keyword word := by
  obtain ⟨y, hy, -⟩ := ofPhrase_some hx
  have hhead := h _ y hy
  cases ts with
  | nil => cases hhead
  | cons t ts =>
    rw [wordsOf, takeWhile_cons] at hhead
    split at hhead
    · exact ⟨t, mem_cons_self, rfl, Option.some.inj hhead⟩
    · cases hhead

theorem opensWith_functionHead : OpensWith "def" (functionHead g) := (opensWith_keyword _).bind

theorem opensWith_typeHead : OpensWith "class" (typeHead g) := (opensWith_keyword _).bind

theorem ahead_some {x : Option Lexeme × List Token}
    (h : (Passage.ofPhrase Phrase.ahead).run ts = some x) : x.2 = ts := by
  obtain ⟨y, ⟨⟩, rfl⟩ := ofPhrase_some h
  simp

section Lines

variable (hblock : LaysBlock all top block)
include hblock

variable {decorators : List Expr}

theorem laid_function {isAsync : Bool} {word : String} (hts : Ordered top ts) (hall : ts <:+ all)
    (hopened : ∃ t ∈ ts, t.line = firstLine top ts ∧ t.lexeme = .keyword word)
    (hword : word ∈ ["def", "async"]) {start : List Token} (hstart : start <:+ ts)
    {x : Form × List Token} (hx : (functionForm g block isAsync decorators).run start = some x)
    (endLine : Nat) :
    Laid all (firstLine top ts) (firstLine top x.2) [⟨firstLine top ts, endLine, x.1⟩] := by
  obtain ⟨y, hy, h⟩ := bind_some.1 hx
  obtain ⟨z, hz, ⟨⟩⟩ := bind_some.1 h
  obtain ⟨w, hw, hbody⟩ := bind_some.1 hz
  obtain ⟨t, ht, hline, hlex⟩ := hopened
  have hmid := ((suffix_of_run _ hw).trans (suffix_of_run _ hy)).trans hstart
  exact laid_declaration hblock hts hall hmid hbody rfl rfl rfl (fun h tl hh => by rw [hh]; rfl) rfl
    ⟨t, hall.subset ht, hline, word, hword, hlex⟩

theorem laysForm_functionForm {isAsync : Bool} :
    LaysForm all top (functionForm g block isAsync decorators) := by
  intro ts x hts hall hx
  obtain ⟨y, hy, -⟩ := bind_some.1 hx
  exact laid_function hblock hts hall (opensWith_functionHead.head hy) (by simp) suffix_rfl hx

theorem laysForm_typeForm : LaysForm all top (typeForm g block decorators) := by
  intro ts x hts hall hx endLine
  obtain ⟨y, hy, h⟩ := bind_some.1 hx
  obtain ⟨z, hz, ⟨⟩⟩ := bind_some.1 h
  obtain ⟨w, hw, hbody⟩ := bind_some.1 hz
  obtain ⟨t, ht, hline, hlex⟩ := opensWith_typeHead.head hy
  have hmid := (suffix_of_run _ hw).trans (suffix_of_run _ hy)
  exact laid_declaration hblock hts hall hmid hbody rfl rfl rfl (fun h tl hh => by rw [hh]; rfl) rfl
    ⟨t, hall.subset ht, hline, "class", by simp [Declaration.openers], hlex⟩

theorem laysForm_asyncForm : LaysForm all top (asyncForm g block) := by
  intro ts x hts hall hx
  obtain ⟨y, hy, hx⟩ := bind_some.1 hx
  obtain ⟨z, hz, hx⟩ := bind_some.1 hx
  have hstart := (suffix_of_run _ hz).trans (suffix_of_run _ hy)
  split at hx
  · exact laid_function hblock hts hall ((opensWith_keyword _).head hy) (by simp) hstart hx
  · exact laid_of_ensures (fun _ => ensures_forForm hblock) hts hall hstart hx
  · exact laid_of_ensures (fun _ => ensures_withForm hblock) hts hall hstart hx

theorem laysForm_decorated : LaysForm all top (decorated g block decorators) := by
  intro ts x hts hall hx
  obtain ⟨y, hy, hx⟩ := bind_some.1 hx
  rw [ahead_some hy] at hx
  split at hx
  · exact laysForm_typeForm hblock ts x hts hall hx
  · obtain ⟨z, hz, hx⟩ := bind_some.1 hx
    exact laid_function hblock hts hall ((opensWith_keyword _).head hz) (by simp)
      (suffix_of_run _ hz) hx
  · exact laysForm_functionForm hblock ts x hts hall hx

end Lines

/-! ## Statements -/

/-- A form without statements in it, and no declaration. -/
def IsSimple (f : Form) : Prop :=
  formLevels f = [] ∧ ∀ line endLine, Declaration.ofStmt? ⟨line, endLine, f⟩ = none

theorem ensures_simpleForm : Ensures (fun _ => True) (simpleForm g) fun f _ => IsSimple f := by
  refine .bind (.frame fun _ _ _ => id) fun lex => ?_
  split
  all_goals
    repeat' first
      | exact .failure
      | exact .pure fun _ _ => ⟨rfl, fun _ _ => rfl⟩
      | exact .map fun _ _ _ _ => ⟨rfl, fun _ _ => rfl⟩
      | refine .bind (.frame fun _ _ _ => id) fun _ => ?_
      | split

theorem ensures_located :
    Ensures (fun _ => True) (located (Passage.ofPhrase (simpleForm g)))
      fun s _ => IsSimple s.form := by
  refine .map (ensures_spanned (Q := fun f _ => IsSimple f) fun ts x _ hx => ?_)
  obtain ⟨y, hy, rfl⟩ := ofPhrase_some hx
  exact ensures_simpleForm _ y trivial hy

theorem declarations_of_simple (h : ∀ s ∈ body, IsSimple s.form) : declarations body = [] := by
  induction body with
  | nil => rfl
  | cons s body ih =>
    obtain ⟨hs, hbody⟩ := forall_mem_cons.1 h
    have hperm := perm_declarations_cons s body
    obtain ⟨line, endLine, form⟩ := s
    rw [hs.2 line endLine, ih hbody, formDeclarations, hs.1] at hperm
    exact hperm.eq_nil

/-- The statements of one line hold no declarations. -/
theorem ensures_simpleLine :
    Ensures (fun _ => True) (simpleLine g) fun body _ => declarations body = [] := by
  refine .bind (Q := fun s _ => ∀ u ∈ [s], IsSimple u.form) ?_ fun first => ?_
  · exact fun ts x h hx => by simpa using ensures_located ts x h hx
  refine .bind (.many (Q := fun rest _ => ∀ u ∈ first :: rest, IsSimple u.form) fun rest => ?_)
    fun rest => .bind (.frame fun _ _ _ => id) fun _ => .pure fun _ => declarations_of_simple
  refine .bind (.frame fun _ _ _ => id) fun isNext => ?_
  split
  · refine .bind (.frame fun _ _ _ => id) fun next => ?_
    split
    · exact .pure fun _ h => by simpa using h
    · refine .map fun ts x h hx => ?_
      have hx := ensures_located ts x trivial hx
      simp only [Option.toList_some, ← cons_append, forall_mem_append]
      exact ⟨h, by simpa using hx⟩
  · exact .pure fun _ h => by simpa using h

theorem laysBlock_simpleLine : LaysBlock all top (simpleLine g) := by
  intro ts x hts hall hx
  have hnone := ensures_simpleLine ts x trivial hx
  refine ⟨?_, by rw [hnone]; simp⟩
  obtain ⟨y, hy, hx⟩ := bind_some.1 hx
  obtain ⟨z, hz, hx⟩ := bind_some.1 hx
  obtain ⟨w, hw, ⟨⟩⟩ := bind_some.1 hx
  obtain ⟨endLine, f, -, rfl⟩ := located_some hy
  have hsuffix := (suffix_of_run _ hz).trans (suffix_of_run _ hy)
  obtain ⟨hordered, hle⟩ := hts.of_suffix hsuffix
  have hlt := hle.trans_lt (lt_of_newline hordered hw)
  have hline := firstLine_zero ((suffix_of_run _ hw).trans hsuffix) hlt
  exact ⟨_, _, rfl, Nat.le_of_eq hline.symm, hline ▸ hlt, hnone ▸ .nil⟩

theorem LaysBlock.laysBody (h : LaysBlock all top block) : LaysBody all top block :=
  fun ts x hts hall hx => (h ts x hts hall hx).1

theorem laysBody_statements (hblock : LaysBlock all top block) :
    LaysBody all top (statements g block shape) := by
  refine .bind fun lex => ?_
  split
  · exact (laysForm_functionForm hblock).located
  · exact (laysForm_typeForm hblock).located
  · exact (LaysForm.of_ensures fun _ => ensures_branchForm hblock).located
  · exact (LaysForm.of_ensures fun _ => ensures_forForm hblock).located
  · exact (LaysForm.of_ensures fun _ => ensures_whileForm hblock).located
  · exact (LaysForm.of_ensures fun _ => ensures_withForm hblock).located
  · exact (LaysForm.of_ensures fun _ => ensures_tryForm hblock).located
  · exact (laysForm_asyncForm hblock).located
  · exact .bind fun decorators => (laysForm_decorated hblock).located
  · refine .bind fun isMatch => ?_
    split
    · exact (LaysForm.of_ensures fun _ => ensures_matchForm hblock).located
    · exact laysBlock_simpleLine.laysBody
  · exact laysBlock_simpleLine.laysBody

/-- Statements one after another: none, if they end at once, or some in the lines that they take. -/
theorem laid_statementsUntil {ends : Option Lexeme → Bool} (hblock : LaysBlock all top block)
    (hts : Ordered top ts) (hall : ts <:+ all) {x : List Stmt × List Token}
    (hx : (statementsUntil g block shape ends).run ts = some x) :
    (x.1 = [] ∧ ends (ts.head?.map (·.lexeme)) = true) ∨
      Laid all (firstLine top ts) (firstLine top x.2) x.1 := by
  obtain ⟨y, hy, ⟨⟩⟩ := bind_some.1 hx
  clear hx
  dsimp only
  revert hy
  change (manyUpTo _ (ts.length + 1)).run ts = some y → _
  generalize ts.length + 1 = room
  intro hy
  induction room generalizing ts y with
  | zero => cases hy
  | succ room ih =>
    obtain ⟨⟨o, mid⟩, ho, hy⟩ := bind_some.1 hy
    obtain ⟨z, ⟨⟩, ho⟩ := bind_some.1 ho
    split at ho
    · next hends =>
      cases ho
      cases hy
      exact .inl ⟨rfl, hends⟩
    · obtain ⟨w, hw, ⟨⟩⟩ := bind_some.1 ho
      obtain ⟨v, hv, ⟨⟩⟩ := bind_some.1 hy
      have hlaid := laysBody_statements hblock ts w hts hall hw
      have hsuffix := suffix_of_run _ hw
      obtain ⟨hordered, -⟩ := hts.of_suffix hsuffix
      refine .inr (hlaid.append (hordered.of_suffix (suffix_of_run _ hv)).2 ?_)
      exact (ih hordered (hsuffix.trans hall) v hv).imp And.left id

theorem not_dedent (h : StartsLine ts) : isDedent (ts.head?.map (·.lexeme)) = false := by
  cases ts with
  | nil => rfl
  | cons t ts =>
    rw [Bool.eq_false_iff]
    intro hd
    simp only [head?_cons, Option.map_some, isDedent] at hd
    split at hd
    · next hlex => exact h.2 (Option.some.inj hlex)
    · cases hd

theorem laysBlock_blockRule (hblock : LaysBlock all top block) :
    LaysBlock all top (blockRule g block shape) := by
  intro ts x hts hall hx
  obtain ⟨y, ⟨⟩, hx⟩ := bind_some.1 hx
  split at hx
  · obtain ⟨n, hn, hx⟩ := bind_some.1 hx
    obtain ⟨i, hi, hx⟩ := bind_some.1 hx
    obtain ⟨z, hz, hx⟩ := bind_some.1 hx
    obtain ⟨w, hw, ⟨⟩⟩ := bind_some.1 hx
    have hlt := lt_of_newline hts hn
    obtain ⟨t, hi', hlex⟩ := lexeme_some hi
    have hsuffix := (suffix_of_run _ hi).trans (suffix_of_run _ hn)
    have hordered := (hts.of_suffix (suffix_of_run _ hn)).1
    have hstarts : StartsLine i.2 := by
      rw [hi'] at hordered
      exact hordered.2.2.2.1 hlex
    obtain ⟨hinner, hle⟩ := hordered.of_suffix (suffix_of_run _ hi)
    obtain ⟨-, hends⟩ | hlaid := laid_statementsUntil hblock hinner (hsuffix.trans hall) hz
    · rw [not_dedent hstarts] at hends
      cases hends
    · obtain ⟨s, rest, hbody, hlo, hlt', hspread⟩ := hlaid
      have hend := (hinner.of_suffix (suffix_of_run _ hz)).1.of_suffix (suffix_of_run _ hw)
      refine ⟨⟨s, rest, hbody, by omega, hlt'.trans_le hend.2, hspread.mono (Nat.le_refl _) hend.2⟩,
        fun d hd => ?_⟩
      have := hspread.within d hd
      omega
  · exact laysBlock_simpleLine ts x hts hall hx

theorem laysBlock_blockUpTo (depth : Nat) : LaysBlock all top (blockUpTo g shape depth) := by
  induction depth with
  | zero => exact fun _ _ _ _ h => by cases h
  | succ depth ih => exact laysBlock_blockRule ih

/-- **The declarations of a file** stand in its lines, each behind its keyword, and apart from each
other. -/
theorem spread_parse {source : List Char} (h : parse source = some body) :
    ∃ ts, tokensOf source = some ts ∧
      Spread ts 1 ((completed source).count '\n' + 1) (declarations body) := by
  rw [parse] at h
  split at h
  · cases h
  · obtain ⟨ts, hts, h⟩ := Option.bind_eq_some_iff.1 h
    obtain ⟨x, hx, rfl⟩ := Option.map_eq_some_iff.1 h
    obtain ⟨hordered, hfirst⟩ := ordered_tokensOf hts
    refine ⟨ts, hts, ?_⟩
    obtain ⟨hnil, -⟩ | ⟨s, rest, -, hlo, hlt, hspread⟩ :=
      laid_statementsUntil (laysBlock_blockUpTo _) hordered suffix_rfl hx
    · rw [hnil]
      exact .nil
    · have hrest := (hordered.of_suffix (suffix_of_run _ hx)).1
      exact hspread.mono (hfirst.trans hlo) (hrest.of_suffix (nil_suffix)).2

end Docsmith.Assistant
