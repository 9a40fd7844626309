import Stagecraft.Widget.Counter
import Stagecraft.Widget.Grid
import Stagecraft.Widget.Queue
import Stagecraft.Widget.Stack

/-!
This module contains the stock widgets as one type.
-/

namespace Stagecraft

inductive StockWidget where
  | grid (grid : Grid)
  | queue (queue : Queue)
  | stack (stack : Stack)
  | counter (counter : Counter)

namespace StockWidget

def name : StockWidget → String
  | grid g => g.name
  | queue q => q.name
  | stack s => s.name
  | counter c => c.name

instance : Widget StockWidget where
  kind
    | grid g => Widget.kind g
    | queue q => Widget.kind q
    | stack s => Widget.kind s
    | counter c => Widget.kind c
  update
    | grid g, method, event, runTime, stage =>
      (Widget.update g method event runTime stage).map grid
    | queue q, method, event, runTime, stage =>
      (Widget.update q method event runTime stage).map queue
    | stack s, method, event, runTime, stage =>
      (Widget.update s method event runTime stage).map stack
    | counter c, method, event, runTime, stage =>
      (Widget.update c method event runTime stage).map counter
  snapshot
    | grid g => Widget.snapshot g
    | queue q => Widget.snapshot q
    | stack s => Widget.snapshot s
    | counter c => Widget.snapshot c

end StockWidget

end Stagecraft
