namespace ClientRuntime

def version : String := "0.1.0"

end ClientRuntime
