import Candlestick.Token

namespace Candlestick.Token

-- A clone shares the state of the token it was made from, so that tokens fall into families. A pool
-- has the state of each family, and the family of each token.
structure Pool where
  families : List Token
  members : List Nat
  deriving DecidableEq, Repr

-- What can be done with the tokens of a pool. The last two only look at a token.
inductive Step where
  | create
  | clone (token : Nat)
  | cancel (token : Nat)
  | check (token : Nat) (stage : String)
  | isCancelled (token : Nat)
  deriving DecidableEq, Repr

-- What a step gives back.
inductive Reply where
  | done
  | checked (result : Except AnalysisError Unit)
  | state (cancelled : Bool)

namespace Pool

def empty : Pool := ⟨[], []⟩

-- A token starts a family of its own.
def create (p : Pool) : Pool := ⟨p.families ++ [fresh], p.members ++ [p.families.length]⟩

def clone (p : Pool) (token : Nat) : Pool :=
  match p.members[token]? with
  | some family => { p with members := p.members ++ [family] }
  | none => p

def cancel (p : Pool) (token : Nat) : Pool :=
  match p.members[token]? with
  | some family => { p with families := p.families.modify family Token.cancel }
  | none => p

def get? (p : Pool) (token : Nat) : Option Token := do p.families[← p.members[token]?]?

def isCancelled (p : Pool) (token : Nat) : Bool := (p.get? token).any Token.cancelled

-- A token that is not in the pool passes.
def check (p : Pool) (token : Nat) (stage : String) : Except AnalysisError Unit :=
  ((p.get? token).getD fresh).check stage

def size (p : Pool) : Nat := p.members.length

def states (p : Pool) : List Bool := (List.range p.size).map p.isCancelled

def step (p : Pool) : Step → Pool
  | .create => p.create
  | .clone token => p.clone token
  | .cancel token => p.cancel token
  | .check _ _ => p
  | .isCancelled _ => p

def reply (p : Pool) : Step → Reply
  | .create => .done
  | .clone _ => .done
  | .cancel _ => .done
  | .check token stage => .checked (p.check token stage)
  | .isCancelled token => .state (p.isCancelled token)

-- The pool after steps that begin with no token.
def run (steps : List Step) : Pool := steps.foldl step empty

end Pool

end Candlestick.Token
