import Mathlib

namespace RedDB.Library.StackMachine

open List

inductive Instr (Leaf Un Bin : Type*)
  | load (leaf : Leaf)
  | unary (op : Un)
  | binary (op : Bin)

inductive Tree (Leaf Un Bin : Type*)
  | leaf (leaf : Leaf)
  | unary (op : Un) (operand : Tree Leaf Un Bin)
  | binary (op : Bin) (left right : Tree Leaf Un Bin)

/-- What leaves and operators compute, and what an operator takes for an operand that is not there. -/
structure Meaning (Leaf Un Bin V E : Type*) where
  load : Leaf → Except E V
  unary : Un → V → V
  unaryMissing : Un → V
  binary : Bin → V → V → V
  binaryMissing : Bin → V

variable {Leaf Un Bin V E : Type*}

def push (cap : Nat) (v : V) (stack : List V) : List V := if stack.length < cap then v :: stack else stack

def pop (missing : V) : List V → V × List V
  | [] => (missing, [])
  | v :: rest => (v, rest)

def step (meaning : Meaning Leaf Un Bin V E) (cap : Nat) (stack : List V) : Instr Leaf Un Bin → Except E (List V)
  | .load leaf => (meaning.load leaf).map fun v => push cap v stack
  | .unary op =>
    let (v, rest) := pop (meaning.unaryMissing op) stack
    .ok (push cap (meaning.unary op v) rest)
  | .binary op =>
    let (right, rest) := pop (meaning.binaryMissing op) stack
    let (left, rest) := pop (meaning.binaryMissing op) rest
    .ok (push cap (meaning.binary op left right) rest)

def exec (meaning : Meaning Leaf Un Bin V E) (cap : Nat) : List (Instr Leaf Un Bin) → List V → Except E (List V)
  | [], stack => .ok stack
  | instr :: code, stack => (step meaning cap stack instr).bind (exec meaning cap code)

namespace Tree

def code : Tree Leaf Un Bin → List (Instr Leaf Un Bin)
  | .leaf x => [.load x]
  | .unary op operand => operand.code ++ [.unary op]
  | .binary op left right => left.code ++ right.code ++ [.binary op]

def eval (meaning : Meaning Leaf Un Bin V E) : Tree Leaf Un Bin → Except E V
  | .leaf x => meaning.load x
  | .unary op operand => (operand.eval meaning).map (meaning.unary op)
  | .binary op left right =>
    (left.eval meaning).bind fun l => (right.eval meaning).map fun r => meaning.binary op l r

def need : Tree Leaf Un Bin → Nat
  | .leaf _ => 1
  | .unary _ operand => operand.need
  | .binary _ left right => max left.need (right.need + 1)

theorem need_pos (tree : Tree Leaf Un Bin) : 0 < tree.need := by
  induction tree with
  | leaf x => exact zero_lt_one
  | unary op operand ih => exact ih
  | binary op left right ihLeft ihRight => exact lt_of_lt_of_le ihLeft (le_max_left _ _)

end Tree

theorem push_of_lt {cap : Nat} {v : V} {stack : List V} (room : stack.length < cap) :
    push cap v stack = v :: stack := if_pos room

theorem exec_code (meaning : Meaning Leaf Un Bin V E) (cap : Nat) (tree : Tree Leaf Un Bin)
    (code : List (Instr Leaf Un Bin)) (stack : List V) (room : stack.length + tree.need ≤ cap) :
    exec meaning cap (tree.code ++ code) stack =
      (tree.eval meaning).bind fun v => exec meaning cap code (v :: stack) := by
  induction tree generalizing code stack with
  | leaf x =>
    have space : stack.length < cap := Nat.lt_of_succ_le room
    rw [Tree.code, singleton_append, exec, step, Tree.eval]
    cases meaning.load x with
    | error e => rfl
    | ok v => exact congrArg (exec meaning cap code) (push_of_lt space)
  | unary op operand ih =>
    have positive := operand.need_pos
    rw [Tree.need] at room
    have space : stack.length < cap := by omega
    rw [Tree.code, append_assoc, ih _ _ room, singleton_append, Tree.eval]
    cases operand.eval meaning with
    | error e => rfl
    | ok v => exact congrArg (exec meaning cap code) (push_of_lt space)
  | binary op left right ihLeft ihRight =>
    have positive := right.need_pos
    rw [Tree.need] at room
    have roomLeft : stack.length + left.need ≤ cap := by omega
    have space : stack.length < cap := by omega
    rw [Tree.code, append_assoc, append_assoc, ihLeft _ _ roomLeft, Tree.eval]
    cases left.eval meaning with
    | error e => rfl
    | ok l =>
      have roomRight : (l :: stack).length + right.need ≤ cap := by
        rw [length_cons]
        omega
      refine (ihRight _ _ roomRight).trans ?_
      change _ = ((right.eval meaning).map fun r => meaning.binary op l r).bind _
      cases right.eval meaning with
      | error e => rfl
      | ok r => exact congrArg (exec meaning cap code) (push_of_lt space)

end RedDB.Library.StackMachine
