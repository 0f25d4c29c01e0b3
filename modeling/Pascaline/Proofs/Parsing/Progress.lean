import Pascaline.Proofs.Lexing.Tiling
import Pascaline.Tree.Parser
import Pascaline.Tree.Spans

/-!
# Progress of a parse

The parts of an expression are the expressions directly in it, in the order of the text. Those of an
allocation may stand in its type, as the lengths of arrays.

Between two states of a parse lie the tokens that were taken. What is read on the way lies between
the start of the first of them and the end of the last one, and there is fuel left for the tokens
that are still ahead.
-/

namespace Pascaline.Tree

/-! ## Expressions in types -/

mutual

/-- The outermost expressions of a type. -/
def TypeExpr.exprs : TypeExpr → List Expr
  | .named _ => []
  | .array length elem _ => length.toList ++ elem.exprs
  | .pointer elem _ => elem.exprs
  | .routine params result _ => Param.allExprs params ++ TypeExpr.resultExprs result
  | .classBody _ members _ => Member.allExprs members

def TypeExpr.resultExprs : Option TypeExpr → List Expr
  | none => []
  | some t => t.exprs

def Param.exprs : Param → List Expr
  | ⟨_, type, _⟩ => type.exprs

def Param.allExprs : List Param → List Expr
  | [] => []
  | p :: ps => p.exprs ++ Param.allExprs ps

def VarDecl.exprs : VarDecl → List Expr
  | ⟨_, type, _⟩ => type.exprs

def Header.exprs : Header → List Expr
  | ⟨_, _, _, params, result, _, _, _⟩ => Param.allExprs params ++ TypeExpr.resultExprs result

def Member.exprs : Member → List Expr
  | .field decl => decl.exprs
  | .method header => header.exprs

def Member.allExprs : List Member → List Expr
  | [] => []
  | m :: ms => m.exprs ++ Member.allExprs ms

end

/-! ## Expressions in expressions -/

namespace Expr

def parts : Expr → List Expr
  | literal .. | name _ | thisRef _ | baseRef _ => []
  | unary _ x _ | member x _ _ | deref x _ | addr x _ => [x]
  | binary _ x y _ | index x y _ => [x, y]
  | call f args _ => f :: args
  | alloc type args size _ => type.exprs ++ size.toList ++ args

/-- The parts lie in the expression, one behind the other. -/
structure Orderly (x : Expr) : Prop where
  nonempty : x.span.start < x.span.stop
  inside : ∀ y ∈ x.parts, within y.span x.span = true
  ordered : x.parts.Pairwise (·.span.stop ≤ ·.span.start)

/-- All expressions in an expression are orderly, and it is itself. -/
inductive Nested : Expr → Prop where
  | intro {x : Expr} (h : x.Orderly) (hparts : ∀ y ∈ x.parts, y.Nested) : x.Nested

theorem Nested.orderly {x : Expr} (h : x.Nested) : x.Orderly := by
  cases h with
  | intro h => exact h

theorem Nested.part {x y : Expr} (h : x.Nested) (hy : y ∈ x.parts) : y.Nested := by
  cases h with
  | intro _ hparts => exact hparts y hy

end Expr

/-! ## Expressions in statements and declarations -/

mutual

/-- The outermost expressions of a statement. -/
def Stmt.exprs : Stmt → List Expr
  | .compound body _ => Stmt.allExprs body
  | .assign target value _ => [target, value]
  | .call x _ => [x]
  | .ifThen cond yes no _ => cond :: (yes.exprs ++ Stmt.elseExprs no)
  | .whileDo cond body _ => cond :: body.exprs
  | .repeatUntil body cond _ => Stmt.allExprs body ++ [cond]
  | .forTo _ first last _ body _ => first :: last :: body.exprs
  | .caseOf subject arms otherwise _ =>
    subject :: (CaseArm.allExprs arms ++ Stmt.allExprs otherwise)
  | .jump _ _ | .empty _ => []

def Stmt.elseExprs : Option Stmt → List Expr
  | none => []
  | some s => s.exprs

def Stmt.allExprs : List Stmt → List Expr
  | [] => []
  | s :: ss => s.exprs ++ Stmt.allExprs ss

def CaseArm.exprs : CaseArm → List Expr
  | ⟨labels, body, _⟩ => labels ++ body.exprs

def CaseArm.allExprs : List CaseArm → List Expr
  | [] => []
  | a :: as => a.exprs ++ CaseArm.allExprs as

end

def Block.exprs (b : Block) : List Expr := Stmt.allExprs b.body

def ConstDecl.exprs (d : ConstDecl) : List Expr := TypeExpr.resultExprs d.type ++ [d.value]

def LocalDecl.exprs : LocalDecl → List Expr
  | const d => d.exprs
  | type d => d.type.exprs
  | var d => d.exprs

def bodyExprs (body : Option Block) : List Expr := (body.map Block.exprs).getD []

def RoutineDecl.exprs (d : RoutineDecl) : List Expr :=
  d.header.exprs ++ d.locals.flatMap LocalDecl.exprs ++ bodyExprs d.body

def Decl.exprs : Decl → List Expr
  | plain d => d.exprs
  | routine d => d.exprs

namespace File

/-- The outermost expressions of a file. -/
def exprs (f : File) : List Expr :=
  f.interface.flatMap Decl.exprs ++ f.implementation.flatMap Decl.exprs ++ bodyExprs f.body

/-- The expressions of a file, at any depth. -/
inductive Contains (f : File) : Expr → Prop where
  | outermost {x : Expr} (h : x ∈ f.exprs) : f.Contains x
  | part {x y : Expr} (h : f.Contains x) (hy : y ∈ x.parts) : f.Contains y

theorem Contains.nested {f : File} (h : ∀ x ∈ f.exprs, x.Nested) {x : Expr} (hx : f.Contains x) :
    x.Nested := by
  induction hx with
  | outermost hx => exact h _ hx
  | part _ hy ih => exact ih.part hy

end File

/-! ## Spans in a row -/

/-- The spans are not empty, lie in this part of the text and follow one another. -/
structure Laid (source : SourceFile) (lo hi : Nat) (spans : List Span) : Prop where
  file : ∀ r ∈ spans, r.file = source.id
  nonempty : ∀ r ∈ spans, r.start < r.stop
  lo_le : ∀ r ∈ spans, lo ≤ r.start
  le_hi : ∀ r ∈ spans, r.stop ≤ hi
  ordered : spans.Pairwise (·.stop ≤ ·.start)

section

variable {source : SourceFile} {lo mid mid' hi : Nat} {spans more : List Span}

theorem Laid.nil : Laid source lo hi [] :=
  ⟨by simp, by simp, by simp, by simp, .nil⟩

theorem Laid.single {r : Span} (hfile : r.file = source.id) (hr : r.start < r.stop)
    (hlo : lo ≤ r.start) (hhi : r.stop ≤ hi) : Laid source lo hi [r] :=
  ⟨by simpa using hfile, by simpa using hr, by simpa using hlo, by simpa using hhi, by simp⟩

theorem Laid.mono (h : Laid source mid mid' spans) (hlo : lo ≤ mid) (hhi : mid' ≤ hi) :
    Laid source lo hi spans where
  file := h.file
  nonempty := h.nonempty
  lo_le r hr := Nat.le_trans hlo (h.lo_le r hr)
  le_hi r hr := Nat.le_trans (h.le_hi r hr) hhi
  ordered := h.ordered

theorem Laid.append (h : Laid source lo mid spans) (h' : Laid source mid' hi more)
    (hlo : lo ≤ mid') (hmid : mid ≤ mid') (hhi : mid ≤ hi) : Laid source lo hi (spans ++ more) where
  file := List.forall_mem_append.mpr ⟨h.file, h'.file⟩
  nonempty := List.forall_mem_append.mpr ⟨h.nonempty, h'.nonempty⟩
  lo_le := List.forall_mem_append.mpr ⟨h.lo_le, fun r hr => Nat.le_trans hlo (h'.lo_le r hr)⟩
  le_hi := List.forall_mem_append.mpr ⟨fun r hr => Nat.le_trans (h.le_hi r hr) hhi, h'.le_hi⟩
  ordered := by
    refine List.pairwise_append.mpr ⟨h.ordered, h'.ordered, fun r hr r' hr' => ?_⟩
    have hstop := h.le_hi r hr
    have hstart := h'.lo_le r' hr'
    omega

end

/-! ## States of a parse -/

namespace Input

def next (s : Input) : Token := s.ahead.headD s.eof

/-- Where the next token starts. -/
def lo (s : Input) : Nat := s.next.span.start

/-- Where the last token stopped. -/
def hi (s : Input) : Nat := s.last.stop

/-- A token of the text. -/
structure Sound (source : SourceFile) (t : Token) : Prop where
  file : t.span.file = source.id
  le : t.span.start ≤ t.span.stop
  le_length : t.span.stop ≤ source.content.length
  lt : t.kind ≠ .endOfFile → t.span.start < t.span.stop

/-- The tokens ahead are in the order of the text, and the last one taken lies before them. -/
structure Tidy (source : SourceFile) (s : Input) : Prop where
  sound : ∀ t ∈ s.ahead, Sound source t
  ordered : s.ahead.Pairwise (·.span.stop ≤ ·.span.start)
  ends : s.ahead.getLast? = some s.eof
  eof : s.eof.kind = .endOfFile
  last : s.last.start ≤ s.last.stop
  behind : s.hi ≤ s.lo

variable {source : SourceFile} {s s' s'' : Input}

theorem Tidy.next_mem (h : s.Tidy source) : s.next ∈ s.ahead := by
  unfold next
  cases hs : s.ahead with
  | nil =>
    have hends := h.ends
    rw [hs] at hends
    cases hends
  | cons t ts => exact List.mem_cons_self

theorem Tidy.length_pos (h : s.Tidy source) : 0 < s.ahead.length :=
  List.length_pos_of_mem h.next_mem

/-- Tokens were taken, at least one, between these states. -/
structure Took (source : SourceFile) (s s' : Input) : Prop where
  before : s.Tidy source
  tidy : s'.Tidy source
  file : s'.last.file = source.id
  first_le : s.next.span.stop ≤ s'.hi
  lo_le : s.lo ≤ s'.last.start
  lo_lt : s.lo < s'.hi
  fewer : s'.ahead.length < s.ahead.length

theorem Took.hi_le (h : Took source s s') : s.hi ≤ s'.hi := by
  have hbehind := h.before.behind
  have hlt := h.lo_lt
  omega

theorem Took.trans (h : Took source s s') (h' : Took source s' s'') : Took source s s'' where
  before := h.before
  tidy := h'.tidy
  file := h'.file
  first_le := Nat.le_trans h.first_le h'.hi_le
  lo_le := by
    have hlast := h.tidy.last
    have hbehind := h.tidy.behind
    have hlo := h.lo_le
    have hlo' := h'.lo_le
    unfold hi at hbehind
    omega
  lo_lt := Nat.lt_of_lt_of_le h.lo_lt h'.hi_le
  fewer := Nat.lt_trans h'.fewer h.fewer

/-- Tokens were taken, or none. -/
inductive Passed (source : SourceFile) (s : Input) : Input → Prop where
  | stay (h : s.Tidy source) : Passed source s s
  | took {s' : Input} (h : Took source s s') : Passed source s s'

theorem Passed.tidy (h : Passed source s s') : s'.Tidy source := by
  cases h with
  | stay h => exact h
  | took h => exact h.tidy

theorem Passed.trans (h : Passed source s s') (h' : Passed source s' s'') :
    Passed source s s'' := by
  cases h with
  | stay => exact h'
  | took h =>
    cases h' with
    | stay => exact .took h
    | took h' => exact .took (h.trans h')

theorem Passed.lo_le (h : Passed source s s') : s.lo ≤ s'.lo := by
  cases h with
  | stay => exact Nat.le_refl _
  | took h =>
    have hlt := h.lo_lt
    have hbehind := h.tidy.behind
    omega

theorem Passed.hi_le (h : Passed source s s') : s.hi ≤ s'.hi := by
  cases h with
  | stay => exact Nat.le_refl _
  | took h => exact h.hi_le

theorem Passed.length_le (h : Passed source s s') : s'.ahead.length ≤ s.ahead.length := by
  cases h with
  | stay => exact Nat.le_refl _
  | took h => exact Nat.le_of_lt h.fewer

theorem Passed.of_fewer (h : Passed source s s') (hfewer : s'.ahead.length < s.ahead.length) :
    Took source s s' := by
  cases h with
  | stay => exact absurd hfewer (Nat.lt_irrefl _)
  | took h => exact h

theorem Took.then (h : Took source s s') (h' : Passed source s' s'') : Took source s s'' :=
  (Passed.trans (.took h) h').of_fewer (Nat.lt_of_le_of_lt h'.length_le h.fewer)

/-- Between these states, these expressions were read, one behind the other. -/
structure MayRead (source : SourceFile) (s : Input) (xs : List Expr) (s' : Input) : Prop where
  passed : Passed source s s'
  laid : Laid source s.lo s'.hi (xs.map Expr.span)
  nested : ∀ x ∈ xs, x.Nested

/-- So were these, and at least one token was taken. -/
structure Reads (source : SourceFile) (s : Input) (xs : List Expr) (s' : Input) : Prop
    extends MayRead source s xs s' where
  fewer : s'.ahead.length < s.ahead.length

variable {xs ys : List Expr} {x y : Expr}

theorem MayRead.length_le (h : MayRead source s xs s') : s'.ahead.length ≤ s.ahead.length :=
  h.passed.length_le

theorem MayRead.tidy (h : MayRead source s xs s') : s'.Tidy source := h.passed.tidy

theorem Reads.tidy (h : Reads source s xs s') : s'.Tidy source := h.passed.tidy

theorem Reads.took (h : Reads source s xs s') : Took source s s' := h.passed.of_fewer h.fewer

theorem Passed.mayRead (h : Passed source s s') : MayRead source s [] s' := ⟨h, .nil, by simp⟩

theorem Tidy.mayRead (h : s.Tidy source) : MayRead source s [] s := (Passed.stay h).mayRead

theorem Took.reads (h : Took source s s') : Reads source s [] s' :=
  ⟨(Passed.took h).mayRead, h.fewer⟩

theorem MayRead.append (h : MayRead source s xs s') (h' : MayRead source s' ys s'') :
    MayRead source s (xs ++ ys) s'' where
  passed := h.passed.trans h'.passed
  laid := by
    rw [List.map_append]
    exact h.laid.append h'.laid h.passed.lo_le h.passed.tidy.behind h'.passed.hi_le
  nested := List.forall_mem_append.mpr ⟨h.nested, h'.nested⟩

theorem Reads.append (h : Reads source s xs s') (h' : MayRead source s' ys s'') :
    Reads source s (xs ++ ys) s'' :=
  ⟨h.toMayRead.append h', Nat.lt_of_le_of_lt h'.length_le h.fewer⟩

theorem Took.before_reads (h : Took source s s') (h' : MayRead source s' xs s'') :
    Reads source s xs s'' :=
  h.reads.append h'

theorem Reads.then (h : Reads source s xs s') (h' : Passed source s' s'') :
    Reads source s xs s'' := by
  simpa using h.append h'.mayRead

theorem MayRead.then_took (h : MayRead source s xs s') (h' : Took source s' s'') :
    Reads source s xs s'' := by
  refine ⟨by simpa using h.append (Passed.took h').mayRead, ?_⟩
  exact Nat.lt_of_lt_of_le h'.fewer h.length_le

theorem MayRead.lo_le (h : MayRead source s xs s') (hx : x ∈ xs) : s.lo ≤ x.span.start :=
  h.laid.lo_le _ (List.mem_map_of_mem hx)

theorem MayRead.le_hi (h : MayRead source s xs s') (hx : x ∈ xs) : x.span.stop ≤ s'.hi :=
  h.laid.le_hi _ (List.mem_map_of_mem hx)

theorem MayRead.lt (h : MayRead source s xs s') (hx : x ∈ xs) : x.span.start < x.span.stop :=
  h.laid.nonempty _ (List.mem_map_of_mem hx)

theorem Reads.node (h : Reads source s xs s') (hparts : x.parts = xs)
    (hfile : x.span.file = source.id) (hlt : x.span.start < x.span.stop)
    (hlo : s.lo ≤ x.span.start) (hhi : x.span.stop ≤ s'.hi)
    (hinside : ∀ y ∈ xs, x.span.start ≤ y.span.start ∧ y.span.stop ≤ x.span.stop) :
    Reads source s [x] s' where
  passed := h.passed
  laid := .single hfile hlt hlo hhi
  fewer := h.fewer
  nested := by
    have hordered := h.laid.ordered
    rw [List.pairwise_map] at hordered
    rw [List.forall_mem_singleton]
    subst hparts
    refine .intro ⟨hlt, fun y hy => ?_, hordered⟩ h.nested
    have hsame : y.span.file = x.span.file :=
      (h.laid.file _ (List.mem_map_of_mem hy)).trans hfile.symm
    simp [within, hsame, hinside y hy]

theorem Took.cover (h : Took source s s') :
    s.next.span.cover s'.last = ⟨source.id, s.lo, s'.hi⟩ := by
  have hfile : s.next.span.file = source.id := (h.before.sound _ h.before.next_mem).file
  have hstart : s.next.span.start ≤ s'.last.start := h.lo_le
  have hstop : s.next.span.stop ≤ s'.last.stop := h.first_le
  unfold Span.cover
  rw [if_pos (hfile.trans h.file.symm), hfile, Nat.min_eq_left hstart, Nat.max_eq_right hstop]
  rfl

theorem Took.laid (h : Took source s s') :
    Laid source s.lo s'.hi [s.next.span.cover s'.last] := by
  rw [h.cover]
  exact .single rfl h.lo_lt (Nat.le_refl _) (Nat.le_refl _)

theorem Reads.whole (h : Reads source s xs s') (hparts : x.parts = xs)
    (hspan : x.span = s.next.span.cover s'.last) :
    Reads source s [x] s' ∧ x.span.start ≤ s'.last.start := by
  rw [h.took.cover] at hspan
  rw [hspan]
  refine ⟨h.node hparts ?_ ?_ ?_ ?_ ?_, h.took.lo_le⟩
  · rw [hspan]
  · rw [hspan]
    exact h.took.lo_lt
  · rw [hspan]
  · rw [hspan]
  · intro y hy
    rw [hspan]
    exact ⟨h.lo_le hy, h.le_hi hy⟩

theorem Reads.binary (h : Reads source s [x] s') (h' : Reads source s' [y] s'') (op : BinaryOp) :
    Reads source s [Parser.binary op x y] s'' := by
  have hx : x ∈ [x] := List.mem_singleton_self x
  have hy : y ∈ [y] := List.mem_singleton_self y
  have hfile : x.span.file = source.id := h.laid.file _ (List.mem_map_of_mem hx)
  have hfile' : y.span.file = source.id := h'.laid.file _ (List.mem_map_of_mem hy)
  have hlt := h.lt hx
  have hlt' := h'.lt hy
  have hlo := h.lo_le hx
  have hhi := h'.le_hi hy
  have hmid : x.span.stop ≤ y.span.start :=
    Nat.le_trans (h.le_hi hx) (Nat.le_trans h.tidy.behind (h'.lo_le hy))
  have hspan : (Parser.binary op x y).span = ⟨source.id, x.span.start, y.span.stop⟩ := by
    change x.span.cover y.span = _
    unfold Span.cover
    rw [if_pos (hfile.trans hfile'.symm), hfile, Nat.min_eq_left (by omega),
      Nat.max_eq_right (by omega)]
  refine (h.append h'.toMayRead).node rfl ?_ ?_ ?_ ?_ ?_
  all_goals rw [hspan]
  · dsimp only
    omega
  · exact hlo
  · exact hhi
  · intro z hz
    dsimp only
    rcases List.mem_cons.mp hz with rfl | hz
    · omega
    · obtain rfl := List.mem_singleton.mp hz
      omega

/-- What is attached to an expression makes one that starts where it starts. -/
structure Anchors (source : SourceFile) (start : Span) (x : Expr) (s : Input) : Prop where
  file : start.file = source.id
  start_eq : start.start = x.span.start
  stop_le : start.stop ≤ s.hi
  le_last : start.start ≤ s.last.start

theorem Reads.anchors (h : Reads source s [x] s') (hlast : x.span.start ≤ s'.last.start) :
    Anchors source x.span x s' := by
  have hx : x ∈ [x] := List.mem_singleton_self x
  exact ⟨h.laid.file _ (List.mem_map_of_mem hx), rfl, h.le_hi hx, hlast⟩

theorem Reads.attach {start : Span} (h : Reads source s [x] s') (hstart : Anchors source start x s')
    (h' : Reads source s' ys s'') (hparts : y.parts = x :: ys)
    (hspan : y.span = start.cover s''.last) :
    Reads source s [y] s'' ∧ Anchors source start y s'' := by
  have htook := h'.took
  have hlast : s'.last.start ≤ s''.last.start := by
    have hle := htook.before.last
    have hbehind := htook.before.behind
    have hlo := htook.lo_le
    unfold hi at hbehind
    omega
  have hstop : start.stop ≤ s''.last.stop := Nat.le_trans hstart.stop_le htook.hi_le
  have hcover : y.span = ⟨source.id, start.start, s''.hi⟩ := by
    rw [hspan]
    unfold Span.cover
    rw [if_pos (hstart.file.trans htook.file.symm), hstart.file,
      Nat.min_eq_left (Nat.le_trans hstart.le_last hlast), Nat.max_eq_right hstop]
    rfl
  have hx : x ∈ [x] := List.mem_singleton_self x
  have hlt := h.lt hx
  have hlo := h.lo_le hx
  have hhi := h.le_hi hx
  have hle := htook.hi_le
  have heq := hstart.start_eq
  constructor
  · refine (h.append h'.toMayRead).node hparts ?_ ?_ ?_ ?_ ?_
    all_goals rw [hcover]
    · dsimp only
      omega
    · dsimp only
      omega
    · intro z hz
      dsimp only
      rcases List.mem_cons.mp hz with rfl | hz
      · omega
      · have hzlo := h'.lo_le hz
        have hzhi := h'.le_hi hz
        have hbehind := htook.before.behind
        omega
  · refine ⟨hstart.file, by rw [hcover], hstop, ?_⟩
    exact Nat.le_trans hstart.le_last hlast

end Input

end Pascaline.Tree
