import BeanWiring.Bean.Value

/-! Bean definitions: everything a container needs to know to create, wire and dispose of a bean. -/

namespace BeanWiring

/-- How long an instance of a bean is shared: for the whole container, or not at all. -/
inductive Scope where
  | singleton
  | prototype
deriving DecidableEq, Repr, Inhabited

/-- The name of a scope in documents. -/
def Scope.name : Scope → String
  | .singleton => "singleton"
  | .prototype => "prototype"

/-- The scope of a name in documents. -/
def Scope.ofName? (name : String) : Option Scope :=
  [Scope.singleton, .prototype].find? fun scope => scope.name == name

/-- What an aspect intercepts: calls of methods, or the exceptions they throw. -/
inductive AspectType where
  | method
  | exception
deriving DecidableEq, Repr, Inhabited

/-- The name of an aspect type in documents. -/
def AspectType.name : AspectType → String
  | .method => "method"
  | .exception => "exception"

/-- The aspect type of a name in documents. -/
def AspectType.ofName? (name : String) : Option AspectType :=
  [AspectType.method, .exception].find? fun aspectType => aspectType.name == name

/-- A property of a bean and the value it is given. -/
structure Property where
  name : String
  value : Value
deriving DecidableEq, Repr, Inhabited

/-- A constructor argument, whose place in the list is its meaning. -/
structure Argument where
  value : Value
deriving DecidableEq, Repr, Inhabited

/-- An aspect: where it applies, what it intercepts, and the bean that does the work. -/
structure Aspect where
  pointcut : String
  aspectType : AspectType
  bean : String
deriving DecidableEq, Repr, Inhabited

/-- The definition of a bean. -/
structure Definition where
  name : String
  className : String := ""
  scope : Scope := .singleton
  factoryMethod : Option String := none
  factoryBean : Option String := none
  initMethod : Option String := none
  destroyMethod : Option String := none
  dependsOn : List String := []
  properties : List Property := []
  arguments : List Argument := []
  aspects : List Aspect := []
deriving DecidableEq, Repr, Inhabited

namespace Definition

/-- Whether one instance serves the whole container. -/
def isSingleton (definition : Definition) : Bool :=
  definition.scope == .singleton

/-- Whether another bean creates the instances. -/
def hasFactoryBean (definition : Definition) : Bool :=
  definition.factoryBean.isSome

/-- The first property of a name. -/
def property? (definition : Definition) (name : String) : Option Property :=
  definition.properties.find? fun property => property.name == name

/-- The definition with a property added at the end. -/
def addProperty (definition : Definition) (property : Property) : Definition :=
  { definition with properties := definition.properties ++ [property] }

/-- The definition with an argument added at the end. -/
def addArgument (definition : Definition) (argument : Argument) : Definition :=
  { definition with arguments := definition.arguments ++ [argument] }

/-- The definition with an aspect added at the end. -/
def addAspect (definition : Definition) (aspect : Aspect) : Definition :=
  { definition with aspects := definition.aspects ++ [aspect] }

end Definition

end BeanWiring
