/-!
# The texts of the shell

What the shell shows before its first prompt, at every prompt, when asked for help, and at the end.
-/

namespace FlatFileDb.Shell

/-- Lines with a line feed behind each. -/
def textOf (lines : List String) : String :=
  String.join (lines.map fun line => line ++ "\n")

/-- What is shown at the start. -/
def banner : String := textOf [
  "",
  " __  __                         ____  ____",
  "|  \\/  | __ _ _   _ _ __   __ _|  _ \\| __ )",
  "| |\\/| |/ _` | | | | '_ \\ / _` | | | |  _ \\",
  "| |  | | (_| | |_| | | | | (_| | |_| | |_) |",
  "|_|  |_|\\__,_|\\__,_|_| |_|\\__, |____/|____/",
  "                          |___/",
  " A flat-file database speaking MaungQL",
  " Type '.help' for help, '.quit' to exit",
  ""]

/-- What is shown when help is asked for. -/
def help : String := textOf [
  "",
  "Commands:",
  "  .help              Show this help message",
  "  .quit              Exit MaungDB",
  "  .createdb <name>   Create a database",
  "  .use <name>        Select a database",
  "  .whoami            Show the current identity",
  "",
  "MaungQL (Sundanese or English keywords):",
  "  DAMEL t id:INT:PK, nama:STRING        CREATE TABLE",
  "  SIMPEN t 1|Asep                        INSERT",
  "  TINGALI t DIMANA id = 1                SELECT",
  "  OMEAN t JADI nama=Euis DIMANA id = 1   UPDATE",
  "  MICEUN TI t DIMANA id = 1              DELETE",
  "  TANDAIN t DINA nama                    CREATE INDEX",
  "  MIMITIAN / JADIKEUN / BATALKEUN        BEGIN / COMMIT / ROLLBACK",
  "  TINGALI PANGKAL                        SHOW DATABASES",
  ""]

/-- What is shown before a line is read. -/
def prompt : String := "maung> "

/-- What is shown at the end. -/
def farewell : String := "Goodbye!\n"

end FlatFileDb.Shell
