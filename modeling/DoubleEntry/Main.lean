import DoubleEntry.Tutorial

/-! Prints the tutorial. -/

def main : IO Unit := IO.print DoubleEntry.Tutorial.text
